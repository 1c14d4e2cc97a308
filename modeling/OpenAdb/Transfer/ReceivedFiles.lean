import OpenAdb.Transfer.PullSteps

namespace OpenAdb.Transfer.ReceivedFiles

open OpenAdb.Lib.Effects OpenAdb.Lib.Encoding OpenAdb.Lib.EventLog OpenAdb.Lib.PyText OpenAdb.Lib.SharedFiles
open OpenAdb.Transfer.TarPull OpenAdb.Transfer.PullSteps

section Dictionaries

variable {α β γ : Type} [DecidableEq α] [BEq α] [LawfulBEq α] {key other : α} {value : β} {dict : List (α × β)}

theorem lookup_assign_self : (assign key value dict).lookup key = some value := by
  induction dict with
  | nil => simp [assign]
  | cons entry dict ih =>
    obtain ⟨k, v⟩ := entry
    rw [assign]
    split_ifs with hkey
    · rw [List.lookup_cons, hkey, beq_self_eq_true]
    · rw [List.lookup_cons, beq_eq_false_iff_ne.mpr (Ne.symm hkey)]
      exact ih

theorem lookup_assign_of_ne (hne : other ≠ key) : (assign key value dict).lookup other = dict.lookup other := by
  induction dict with
  | nil => simp [assign, List.lookup_cons, beq_eq_false_iff_ne.mpr hne]
  | cons entry dict ih =>
    obtain ⟨k, v⟩ := entry
    rw [assign]
    split_ifs with hkey
    · rw [List.lookup_cons, List.lookup_cons, hkey, beq_eq_false_iff_ne.mpr hne]
    · rw [List.lookup_cons, List.lookup_cons, ih]

omit [BEq α] [LawfulBEq α] in
theorem map_assign (f : β → γ) : (assign key value dict).map (fun entry => (entry.1, f entry.2)) =
    assign key (f value) (dict.map fun entry => (entry.1, f entry.2)) := by
  induction dict with
  | nil => rfl
  | cons entry dict ih =>
    obtain ⟨k, v⟩ := entry
    rw [assign, List.map_cons, assign]
    split_ifs
    · rfl
    · rw [List.map_cons, ih]

theorem keys_assign : (assign key value dict).map Prod.fst = add key (dict.map Prod.fst) := by
  induction dict with
  | nil => rfl
  | cons entry dict ih =>
    obtain ⟨k, v⟩ := entry
    rw [assign]
    split_ifs with hkey
    · rw [List.map_cons, List.map_cons, add, hkey, if_pos List.mem_cons_self]
    · rw [List.map_cons, ih, add, add]
      by_cases hmem : key ∈ dict.map Prod.fst
      · rw [if_pos hmem, List.map_cons, if_pos (List.mem_cons_of_mem _ hmem)]
      · rw [if_neg hmem, List.map_cons, if_neg fun h => (List.mem_cons.mp h).elim (fun h => hkey h.symm) hmem]
        rfl

theorem nodup_add {set : List α} (h : set.Nodup) : (add key set).Nodup := by
  rw [add]
  split_ifs with hmem
  · exact h
  · exact List.nodup_append.mpr ⟨h, List.pairwise_singleton _ _, fun a ha b hb heq =>
      hmem (List.mem_singleton.mp hb ▸ heq ▸ ha)⟩

omit [BEq α] [LawfulBEq α] in
theorem mem_assign {x : α × β} (hkeys : (dict.map Prod.fst).Nodup) (hmem : x ∈ assign key value dict) :
    x = (key, value) ∨ x ∈ dict ∧ x.1 ≠ key := by
  induction dict with
  | nil => exact .inl (List.mem_singleton.mp hmem)
  | cons entry dict ih =>
    obtain ⟨k, v⟩ := entry
    obtain ⟨hk, hkeys⟩ := List.nodup_cons.mp hkeys
    rw [assign] at hmem
    split_ifs at hmem with hkey
    · refine (List.mem_cons.mp hmem).imp (fun h => hkey ▸ h) fun h => ⟨List.mem_cons_of_mem _ h, fun heq => hk ?_⟩
      exact List.mem_map.mpr ⟨x, h, heq.trans hkey.symm⟩
    · obtain rfl | h := List.mem_cons.mp hmem
      · exact .inr ⟨List.mem_cons_self, hkey⟩
      · exact (ih hkeys h).imp_right fun h => ⟨List.mem_cons_of_mem _ h.1, h.2⟩

omit [DecidableEq α] in
theorem mem_of_lookup (h : dict.lookup key = some value) : (key, value) ∈ dict := by
  obtain ⟨before, after, rfl, -⟩ := List.lookup_eq_some_iff.mp h
  exact List.mem_append_right _ List.mem_cons_self

end Dictionaries

section Staging

variable {μ : Type} {p : Pull μ} {v : View μ} {s : State μ} {temp : Path} {e : Entry μ} {pre : Text} {c : Bytes}

/-- A new file is empty, and at a place where nothing was known to be. -/
theorem mkstemp_meets (hguarded : v.guarded = true) (hpre : pre = tempPrefix ∨ pre = backupPrefix) (dir : Path) :
    Meets (At p v) (mkstemp p pre dir)
      (fun place s => (v.frees place ∧ ∃ text, place = dir ++ [pre ++ text]) ∧
        ∃ e : Entry μ, e.kind = .file ∧ e.content = [] ∧
        At p { v with known := .created place :: v.known, held := (place, e) :: v.held } s) (fun _ => At p v) := by
  refine Meets.bind (Q := fun text s => (∃ log, text = p.random log) ∧ At p v s)
    (fun s h => ⟨⟨s.log, rfl⟩, ask_calm (p := p) p.random s h⟩) fun text => Meets.of_fact fun htext => ?_
  obtain ⟨log, rfl⟩ := htext
  have hchosen : Chosen p (dir ++ [pre ++ p.random log]) := by
    refine ⟨log, dir, hpre.imp (fun h => ?_) fun h => ?_⟩ <;> rw [h]
  refine Meets.bind (create_meets (At.stable p v) fun s h hnone => ?_) fun _ => Meets.pure fun s h => h
  refine ⟨⟨⟨fun target hlookup => ?_, fun e hmem => ?_⟩, _, rfl⟩, _, rfl, rfl, h.create hnone hchosen (by simp)⟩
  · obtain ⟨e, he, -⟩ := (h.kept hguarded).filled target _ (h.backups.symm ▸ hlookup)
    rw [hnone] at he
    cases he
  · rw [(h.held _ e hmem).2.1] at hnone
    cases hnone

/-- The staged file has this content so far. -/
def Holding (p : Pull μ) (v : View μ) (temp : Path) (c : Bytes) (s : State μ) : Prop :=
  ∃ e : Entry μ, (e.kind = .file ∧ e.content = c) ∧ At p { v with held := (temp, e) :: v.held } s

theorem holding_stable (p : Pull μ) (v : View μ) (temp : Path) (c : Bytes) : Stable p.world (Holding p v temp c) :=
  .of_exists fun _ => (At.stable p _).fact

theorem Holding.at (h : Holding p v temp c s) : At p v s := by
  obtain ⟨e, -, h⟩ := h
  exact h.mono id rfl rfl h.known fun x hx => List.mem_cons_of_mem _ hx

theorem Holding.rewrite (hfree : v.frees temp) (hcreated : .created temp ∈ v.known) {found : Entry μ}
    (h : Holding p v temp c s) (hfound : s.disk temp = some found) {more : Bytes} (hkind : e.kind = found.kind)
    (hcontent : e.content = found.content ++ more) :
    Holding p v temp (c ++ more) ⟨put s.disk temp (some e), .wrote temp :: s.log, s.vars⟩ := by
  obtain ⟨e', ⟨hfile, hc⟩, h⟩ := h
  have he := (h.held temp e' List.mem_cons_self).2.1
  rw [hfound, Option.some_inj] at he
  subst he
  refine ⟨e, ⟨hkind.trans hfile, hcontent.trans (congrArg (· ++ more) hc)⟩, ?_⟩
  have hrest : At p v s := h.mono id rfl rfl h.known fun x hx => List.mem_cons_of_mem _ hx
  refine At.hold (hrest.placing (hrest.known _ hcreated) rfl fun _ _ _ => hfree) ?_ put_same ?_
  · exact List.mem_cons_of_mem _ (hrest.known _ hcreated)
  · rw [hkind, hfile]
    simp

/-- The end of a step on a staged file, which raises with the file still in place. -/
theorem copyChunks_meets (hfree : v.frees temp) (hcreated : .created temp ∈ v.known) (cut : Option Raised)
    (chunks : List Bytes) :
    Meets (Holding p v temp c) (copyChunks p temp cut chunks)
      (fun _ s => cut = none ∧ Holding p v temp (c ++ chunks.flatten) s) (fun _ => At p v) := by
  have hcheck : ∀ c', Meets (Holding p v temp c') (checkCancelled p) (fun _ => Holding p v temp c') (fun _ => At p v) :=
    fun c' => checkCancelled_meets (holding_stable p v temp c') fun _ h => h.at
  induction chunks generalizing c with
  | nil =>
    refine Meets.bind (hcheck c) fun _ => ?_
    cases cut with
    | none =>
      refine Meets.pure fun s h => ⟨rfl, ?_⟩
      rwa [List.flatten_nil, List.append_nil]
    | some e => exact Meets.raise fun _ h => h.at
  | cons chunk chunks ih =>
    refine Meets.bind (hcheck c) fun _ => Meets.bind (Q := fun _ => Holding p v temp (c ++ chunk)) ?_ fun _ => ?_
    · refine (write_meets (holding_stable p v temp c) fun s found h hfound => ?_).weaken fun _ _ h => h.at
      exact h.rewrite hfree hcreated hfound rfl rfl
    refine Meets.bind (Q := fun _ => Holding p v temp (c ++ chunk)) ?_ fun _ => ?_
    · refine setVars_meets fun s h => ?_
      obtain ⟨e, he, h⟩ := h
      exact ⟨e, he, h.reset rfl rfl (fun _ hb => hb) rfl h.base.folders⟩
    refine Meets.bind ((call_meets (holding_stable p v temp _)).weaken fun _ _ h => h.at) fun _ => ?_
    rw [List.flatten_cons, ← List.append_assoc]
    exact ih

theorem stage_meets (hfree : v.frees temp) (hcreated : .created temp ∈ v.known) (chunks : List Bytes)
    (cut : Option Raised) :
    Meets (Holding p v temp []) (stage p temp chunks cut)
      (fun _ s => cut = none ∧ Holding p v temp chunks.flatten s) (fun _ => At p v) := by
  refine Meets.catching (E := fun _ => At p v) (Meets.bind (Q := fun _ => Holding p v temp []) ?_ fun _ => ?_)
    fun e => ?_
  · refine (write_meets (holding_stable p v temp []) fun s found h hfound => ?_).weaken fun _ _ h => h.at
    exact h.rewrite hfree hcreated hfound rfl rfl
  · exact copyChunks_meets hfree hcreated cut chunks
  · exact Meets.bind (removeTempFile_calm hcreated hfree) fun _ => Meets.raise fun _ h => h

end Staging

section Receiving

variable {μ : Type} {p : Pull μ} {v : View μ} {s : State μ}

/-- The files that wait for their targets: the target, the staged file and its entry. -/
abbrev Staged (μ : Type) := List (Path × (Path × Entry μ))

structure Listed (files : Staged μ) : Prop where
  targets : (files.map Prod.fst).Nodup
  temps : ∀ f ∈ files, ∀ f' ∈ files, f.2.1 = f'.2.1 → f = f'

def contents (files : Staged μ) : List (Path × Bytes) := files.map fun f => (f.1, f.2.2.content)

def receiving (files : Staged μ) : View μ := ⟨true, files.map fun f => (f.1, f.2.1), [], [], files.map Prod.snd⟩

/-- These are the files so far, with their contents. -/
def Received (p : Pull μ) (dict : List (Path × Bytes)) (s : State μ) : Prop :=
  ∃ files : Staged μ, (Listed files ∧ contents files = dict) ∧ At p (receiving files) s

/-- Nothing was moved aside. -/
def Loose (p : Pull μ) (s : State μ) : Prop := ∃ pending, At p ⟨true, pending, [], [], []⟩ s

theorem At.loose (h : At p v s) (hguarded : v.guarded = true) (hbackups : v.backups = []) : Loose p s :=
  ⟨v.pending, h.mono (fun _ => hguarded) rfl hbackups.symm (fun _ hmem => by cases hmem) fun _ hx => by cases hx⟩

theorem received_stable (p : Pull μ) (dict : List (Path × Bytes)) : Stable p.world (Received p dict) :=
  .of_exists fun _ => (At.stable p _).fact

theorem Received.loose {dict : List (Path × Bytes)} (h : Received p dict s) : Loose p s := by
  obtain ⟨files, -, h⟩ := h
  exact At.loose h rfl rfl

variable {files : Staged μ} {target temp : Path} {c : Bytes} {e : Entry μ}

theorem Listed.assign (h : Listed files) (hfree : ∀ e, (temp, e) ∉ files.map Prod.snd) :
    Listed (assign target (temp, e) files) where
  targets := by
    rw [keys_assign]
    exact nodup_add h.targets
  temps := fun f hf f' hf' heq => by
    have hother : ∀ f ∈ files, f.2.1 ≠ temp := fun f hf htemp =>
      hfree f.2.2 (List.mem_map.mpr ⟨f, hf, Prod.ext htemp rfl⟩)
    obtain rfl | ⟨hf, -⟩ := mem_assign h.targets hf
    · obtain rfl | ⟨hf', -⟩ := mem_assign h.targets hf'
      · rfl
      · exact absurd heq.symm (hother f' hf')
    · obtain rfl | ⟨hf', -⟩ := mem_assign h.targets hf'
      · exact absurd heq (hother f hf)
      · exact h.temps f hf f' hf' heq

theorem mem_of_lookup_pending {previous : Path} (h : (files.map fun f => (f.1, f.2.1)).lookup target = some previous) :
    ∃ f ∈ files, f.1 = target ∧ f.2.1 = previous := by
  obtain ⟨f, hf, heq⟩ := List.mem_map.mp (mem_of_lookup h)
  obtain ⟨h1, h2⟩ := Prod.mk.inj heq
  exact ⟨f, hf, h1, h2⟩

/-- The view while one file is received. -/
def staging (files : Staged μ) (temp : Path) : View μ := { receiving files with known := [.created temp] }

def others (files : Staged μ) (target : Path) : Staged μ := files.filter fun f => f.1 ≠ target

/-- The earlier file of the same target goes, and no other. -/
theorem removePrevious_meets (hlisted : Listed files) (hfree : (receiving files).frees temp) :
    Meets (Holding p (staging files temp) temp c) (removePrevious p target)
      (fun _ => Holding p { staging files temp with held := (others files target).map Prod.snd } temp c)
      (fun _ => Loose p) := by
  refine Meets.of_exists fun e => Meets.of_fact fun he => ?_
  refine Meets.bind (Q := fun previous s => (∀ x ∈ previous.toList, ∃ f ∈ files, f.1 = target ∧ f.2.1 = x) ∧
    At p { staging files temp with held := (temp, e) :: files.map Prod.snd } s) (Meets.read fun s h => ⟨?_, h⟩)
    fun previous => Meets.of_fact fun hprevious => ?_
  · intro x hx
    refine mem_of_lookup_pending ?_
    rw [h.pending] at hx
    exact Option.mem_toList.mp hx
  let after : View μ := { staging files temp with
    known := previous.toList.map .created ++ [.created temp], held := (temp, e) :: (others files target).map Prod.snd }
  have hcalm : Calm p after (removeTempFiles p previous.toList) := by
    refine removeTempFiles_calm fun x hx => ⟨List.mem_append_left _ (List.mem_map_of_mem hx), fun _ hlookup => ?_,
      fun e' hmem => ?_⟩
    · cases hlookup
    obtain ⟨f, hf, htarget, rfl⟩ := hprevious x hx
    obtain heq | hmem := List.mem_cons.mp hmem
    · exact hfree.2 f.2.2 (List.mem_map.mpr ⟨f, hf, Prod.ext (Prod.mk.inj heq).1 rfl⟩)
    · obtain ⟨f', hf', heq⟩ := List.mem_map.mp hmem
      obtain ⟨hf', hne⟩ := List.mem_filter.mp hf'
      have htemp : f'.2.1 = f.2.1 := by rw [heq]
      have hsame := hlisted.temps f' hf' f hf htemp
      rw [hsame, htarget] at hne
      exact of_decide_eq_true hne rfl
  refine Meets.mono hcalm (fun s h => h.mono id rfl rfl (fun event hmem => ?_) fun x hx => ?_)
    (fun _ s h => ⟨e, he, h.mono id rfl rfl (fun event hmem => ?_) fun _ hx => hx⟩) fun _ s h => At.loose h rfl rfl
  · obtain hmem | hmem := List.mem_append.mp hmem
    · obtain ⟨x, hx, rfl⟩ := List.mem_map.mp hmem
      obtain ⟨f, hf, -, rfl⟩ := hprevious x hx
      exact (h.held f.2.1 f.2.2 (List.mem_cons_of_mem _ (List.mem_map_of_mem hf))).1
    · exact h.known event hmem
  · refine (List.mem_cons.mp hx).elim (fun heq => heq ▸ List.mem_cons_self) fun hx => ?_
    obtain ⟨f, hf, rfl⟩ := List.mem_map.mp hx
    exact List.mem_cons_of_mem _ (List.mem_map_of_mem (List.mem_filter.mp hf).1)
  · exact h.known event (List.mem_append_right _ hmem)

theorem mem_others {x : Path × (Path × Entry μ)} (hlisted : Listed files)
    (hx : x ∈ assign target (temp, e) files) : x.2 ∈ (temp, e) :: (others files target).map Prod.snd := by
  obtain rfl | ⟨hx, hne⟩ := mem_assign hlisted.targets hx
  · exact List.mem_cons_self
  · exact List.mem_cons_of_mem _ (List.mem_map_of_mem (List.mem_filter.mpr ⟨hx, decide_eq_true hne⟩))

/-- The staged file takes the place of an earlier one. -/
theorem At.assign (hlisted : Listed files) (hnamed : Named p target) (hroot : p.root <+: target) (htemp : IsTemp temp)
    (h : At p { staging files temp with held := (temp, e) :: (others files target).map Prod.snd } s) (count : Nat) :
    At p (receiving (assign target (temp, e) files))
      { s with vars := { s.vars with pending := assign target temp s.vars.pending, receivedFiles := count } } where
  base := by
    refine { h.base with pending := fun target' temp' hmem => ?_, backups := fun target' backup hlookup => ?_ }
    · have hkeys : (s.vars.pending.map Prod.fst).Nodup := by
        rw [h.pending]
        change ((files.map fun f => (f.1, f.2.1)).map Prod.fst).Nodup
        rw [List.map_map]
        exact hlisted.targets
      obtain heq | ⟨hmem, -⟩ := mem_assign hkeys hmem
      · cases heq
        exact ⟨hnamed, hroot, htemp, h.known _ List.mem_cons_self⟩
      · exact h.base.pending target' temp' hmem
    · rw [h.backups] at hlookup
      cases hlookup
  kept := fun hguarded => { h.kept hguarded with }
  pending := by
    have hmap : (TarPull.assign target (temp, e) files).map (fun f => (f.1, f.2.1)) =
        TarPull.assign target temp (files.map fun f => (f.1, f.2.1)) := map_assign Prod.fst
    rw [receiving, hmap]
    exact congrArg (TarPull.assign target temp) h.pending
  backups := h.backups
  known := fun _ hmem => by cases hmem
  held := fun place e' hmem => by
    obtain ⟨x, hx, heq⟩ := List.mem_map.mp hmem
    exact h.held place e' (heq ▸ mem_others hlisted hx)

theorem receiveFile_meets {dict : List (Path × Bytes)} (hnamed : Named p target) (hroot : p.root <+: target)
    (chunks : List Bytes) (cut : Option Raised) (mtime : Nat) :
    Meets (Received p dict) (receiveFile p target chunks cut mtime)
      (fun _ => Received p (assign target chunks.flatten dict)) (fun _ => Loose p) := by
  refine Meets.of_exists fun files => Meets.of_fact fun hfiles => ?_
  obtain ⟨hlisted, rfl⟩ := hfiles
  have hless : ∀ s, At p (receiving files) s → Loose p s := fun s h => At.loose h rfl rfl
  refine Meets.bind ((ensureDirectory_calm _).weaken fun _ => hless) fun _ => ?_
  refine Meets.bind ((mkstemp_meets rfl (.inl rfl) _).weaken fun _ => hless) fun temp => Meets.of_fact fun hplace => ?_
  obtain ⟨hfree, text, htext⟩ := hplace
  have hstaging : (staging files temp).frees temp := hfree
  have hloose : ∀ c s, Holding p (staging files temp) temp c s → Loose p s := by
    rintro c s ⟨e, -, h⟩
    exact At.loose h rfl rfl
  refine Meets.pre (P := Holding p (staging files temp) temp []) ?_ fun s h => ?_
  swap
  · obtain ⟨e, hkind, hcontent, h⟩ := h
    exact ⟨e, ⟨hkind, hcontent⟩, h⟩
  refine Meets.bind ((stage_meets hstaging List.mem_cons_self chunks cut).weaken fun _ s h => At.loose h rfl rfl)
    fun _ => Meets.of_fact fun _ => ?_
  refine Meets.bind (Q := fun _ => Holding p (staging files temp) temp chunks.flatten) ?_ fun _ => ?_
  · refine Meets.ite (fun _ => ?_) fun _ => Meets.pure fun _ h => h
    refine (orOsError_meets (utime_meets (holding_stable p _ temp _) fun s found h hfound => ?_) fun _ =>
      Meets.pure fun _ h => h).weaken fun _ => hloose _
    have hkind : ({ found with mark := p.world.mark s.log } : Entry μ).kind = found.kind := rfl
    have hrewritten := h.rewrite hstaging List.mem_cons_self hfound hkind (List.append_nil found.content).symm
    rwa [List.append_nil] at hrewritten
  refine Meets.bind (removePrevious_meets hlisted hfree) fun _ => ?_
  refine Meets.bind (Q := fun _ => Received p (assign target chunks.flatten (contents files))) ?_ fun _ => ?_
  · refine setVars_meets fun s h => ?_
    obtain ⟨e, he, h⟩ := h
    refine ⟨assign target (temp, e) files, ⟨hlisted.assign hfree.2, ?_⟩,
      At.assign hlisted hnamed hroot ⟨_, text, htext⟩ h _⟩
    rw [contents, map_assign (fun x : Path × Entry μ => x.2.content), he.2, contents]
  · exact (call_meets (received_stable p _)).weaken fun _ s h => h.loose

end Receiving

section Archive

variable {μ : Type} {p : Pull μ} {target : Path} {name : Text} {dict : List (Path × Bytes)}

theorem named_of_safeTarget (h : safeTarget p name = .ok (some target)) : Named p target ∧ p.root <+: target := by
  rw [safeTarget] at h
  split_ifs at h
  · cases h
  cases hresolve : p.resolve (OpenAdb.Lib.HostPath.components '/' (replaceChar '\\' '/' name)) with
  | error e =>
    rw [hresolve] at h
    cases h
  | ok place =>
    rw [hresolve] at h
    dsimp only at h
    split_ifs at h with hroot
    · obtain rfl := Option.some_inj.mp (Except.ok.inj h)
      exact ⟨⟨_, hresolve⟩, List.isPrefixOf_iff_prefix.mp hroot⟩
    · cases h

/-- The files that an archive has for places below the destination; of one place, the last. -/
def wanted (p : Pull μ) (dict : List (Path × Bytes)) (member : Member) : List (Path × Bytes) :=
  match safeTarget p member.name, member.kind with
  | .ok (some target), .file chunks _ => assign target chunks.flatten dict
  | _, _ => dict

theorem receiveMember_meets (member : Member) :
    Meets (Received p dict) (receiveMember p member) (fun _ => Received p (wanted p dict member))
      (fun _ => Loose p) := by
  have hcalm : ∀ directory, Meets (Received p dict) (ensureDirectory p directory) (fun _ => Received p dict)
      (fun _ => Loose p) := by
    refine fun directory => Meets.of_exists fun files => Meets.of_fact fun hfiles => ?_
    exact (ensureDirectory_calm directory).mono (fun _ h => h) (fun _ s h => ⟨files, hfiles, h⟩) fun _ s h =>
      At.loose h rfl rfl
  refine Meets.bind (checkCancelled_meets (received_stable p dict) fun _ h => h.loose) fun _ => ?_
  refine Meets.bind (Q := fun found s => safeTarget p member.name = .ok found ∧ Received p dict s)
    (Meets.lift (fun found hfound s h => ⟨hfound, h⟩) fun _ _ s h => h.loose)
    fun found => Meets.of_fact fun hfound => ?_
  rw [wanted, hfound]
  cases found with
  | none => exact Meets.pure fun _ h => h
  | some target =>
    refine Meets.bind ((call_meets (received_stable p dict)).weaken fun _ s h => h.loose) fun _ => ?_
    obtain ⟨hnamed, hroot⟩ := named_of_safeTarget hfound
    cases member.kind with
    | directory => exact hcalm target
    | special => exact Meets.pure fun _ h => h
    | file chunks cut => exact receiveFile_meets hnamed hroot chunks cut member.mtime

theorem receiveMembers_meets (members : List Member) :
    Meets (Received p dict) (receiveMembers p members) (fun _ => Received p (members.foldl (wanted p) dict))
      (fun _ => Loose p) := by
  induction members generalizing dict with
  | nil =>
    rw [receiveMembers]
    cases p.broken with
    | none => exact Meets.pure fun _ h => h
    | some e => exact Meets.raise fun _ h => h.loose
  | cons member members ih => exact Meets.bind (receiveMember_meets member) fun _ => ih

/-- What a pull is to bring. -/
def files (p : Pull μ) : List (Path × Bytes) := p.members.foldl (wanted p) []

theorem outputWriter_meets :
    Meets (At p (receiving [])) (outputWriter p) (fun _ => Received p (files p)) (fun _ => Loose p) := by
  refine Meets.bind ((ensureDirectory_calm _).weaken fun _ s h => At.loose h rfl rfl) fun _ => ?_
  refine (@receiveMembers_meets _ p [] p.members).pre fun s h => ⟨[], ⟨⟨List.nodup_nil, ?_⟩, rfl⟩, h⟩
  exact fun f hf => by cases hf

theorem loose_stable (p : Pull μ) : Stable p.world (Loose p) := .of_exists fun _ => At.stable p _

/-- All files wait for their targets when the result is a success. -/
def Arrived (p : Pull μ) (success : Bool) (s : State μ) : Prop :=
  if success = true then Received p (files p) s else Loose p s

theorem arrived_stable (p : Pull μ) (success : Bool) : Stable p.world (Arrived p success) := by
  cases success with
  | false => exact loose_stable p
  | true => exact received_stable p _

theorem pullTarStreaming_meets :
    Meets (At p (receiving [])) (pullTarStreaming p) (fun result => Arrived p result.success) (fun _ => Loose p) := by
  have hfails : Meets (Loose p) (do
      let result ← lift (← ask p.answer)
      pure { result with success := false }) (fun result => Arrived p result.success) (fun _ => Loose p) := by
    refine Meets.bind (ask_meets (loose_stable p) _) fun _ => ?_
    exact Meets.bind (Meets.lift (fun _ _ _ h => h) fun _ _ _ h => h) fun _ => Meets.pure fun _ h => h
  refine Meets.bind ((ask_calm (p := p) _).weaken fun _ s h => At.loose h rfl rfl) fun _ =>
    Meets.ite (fun _ => ?_) fun _ => ?_
  · refine Meets.bind outputWriter_meets.trying fun written => ?_
    cases written with
    | error e => exact hfails
    | ok _ =>
      refine Meets.bind ((ask_meets (received_stable p (files p)) _).weaken fun _ s h => h.loose) fun answer => ?_
      refine Meets.lift (fun result _ s h => ?_) fun _ _ s h => h.loose
      rw [Arrived]
      split_ifs
      · exact h
      · exact Received.loose h
  · exact hfails.pre fun s h => At.loose h rfl rfl

theorem cleanup_loose : Meets (Loose p) (cleanupPendingFiles p) (fun _ => Loose p) (fun _ => Loose p) :=
  Meets.of_exists fun pending => (cleanupPendingFiles_calm rfl).mono (fun _ h => h) (fun _ _ h => ⟨pending, h⟩)
    fun _ _ h => ⟨pending, h⟩

theorem cleanupCreated_loose : Meets (Loose p) (cleanupCreatedDirectories p) (fun _ => Loose p) (fun _ => Loose p) :=
  Meets.of_exists fun pending => cleanupCreatedDirectories_calm.mono (fun _ h => h) (fun _ _ h => ⟨pending, h⟩)
    fun _ _ h => ⟨pending, h⟩

theorem received_meets :
    Meets (At p (receiving [])) (received p) (fun result => Arrived p result.success) (fun _ => Loose p) := by
  refine pullTarStreaming_meets.catching fun e => ?_
  exact Meets.bind cleanup_loose fun _ => Meets.bind cleanupCreated_loose fun _ => Meets.raise fun _ h => h

end Archive

end OpenAdb.Transfer.ReceivedFiles
