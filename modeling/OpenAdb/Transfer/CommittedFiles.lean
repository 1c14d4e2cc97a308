import OpenAdb.Transfer.ReceivedFiles

namespace OpenAdb.Transfer.CommittedFiles

open OpenAdb.Lib.Effects OpenAdb.Lib.Encoding OpenAdb.Lib.EventLog OpenAdb.Lib.PyText OpenAdb.Lib.SharedFiles
open OpenAdb.Transfer.TarPull OpenAdb.Transfer.PullSteps OpenAdb.Transfer.ReceivedFiles

variable {μ : Type} {p : Pull μ} {v : View μ} {s : State μ} {target temp backup place : Path} {e : Entry μ}

/-- The originals are kept. -/
def Guarded (p : Pull μ) (s : State μ) : Prop := ∃ v : View μ, (v.guarded = true ∧ v.held = []) ∧ At p v s

theorem At.guards (h : At p v s) (hguarded : v.guarded = true) : Guarded p s :=
  ⟨{ v with held := [] }, ⟨hguarded, rfl⟩, h.mono id rfl rfl h.known fun _ hx => by cases hx⟩

/-- What an entry of the pending files tells. -/
theorem At.named (h : At p v s) (hmem : (target, temp) ∈ v.pending) :
    Named p target ∧ p.root <+: target ∧ IsTemp temp := by
  obtain ⟨hnamed, hroot, htemp, -⟩ := h.base.pending target temp (h.pending.symm ▸ hmem)
  exact ⟨hnamed, hroot, htemp⟩

theorem At.ne_created (h : At p v s) (hnamed : Named p target) (hcreated : .created place ∈ s.log) : place ≠ target :=
  (named_ne_chosen hnamed (h.base.created place hcreated)).symm

section Aside

/-- The original goes to its backup. -/
theorem At.aside {e₀ : Entry μ} (h : At p { v with held := (backup, e₀) :: v.held } s) (hnamed : Named p target)
    (hroot : p.root <+: target) (hpending : target ∈ v.pending.map Prod.fst) (hbackup : IsBackup backup)
    (hfree : v.frees backup) (hnew : v.backups.lookup target = none) (hkind : e.kind ≠ .folder) :
    At p { v with backups := assign target backup v.backups }
      ⟨move s.disk target backup e, .replaced target backup e (s.disk backup) :: s.log,
        { s.vars with backups := assign target backup s.vars.backups }⟩ := by
  have hcreated : .created backup ∈ s.log := (h.held backup e₀ List.mem_cons_self).1
  have hplace : move s.disk target backup e backup = some e := put_same
  have hmove : ∀ place, .created place ∈ s.log → place ≠ backup → move s.disk target backup e place = s.disk place :=
    fun place hplace hne => move_of_ne (At.ne_created h hnamed hplace) hne
  have hlookup : ∀ other b, (assign target backup s.vars.backups).lookup other = some b →
      other = target ∧ b = backup ∨ other ≠ target ∧ v.backups.lookup other = some b := by
    intro other b hb
    by_cases hother : other = target
    · rw [hother, lookup_assign_self, Option.some_inj] at hb
      exact .inl ⟨hother, hb.symm⟩
    · rw [lookup_assign_of_ne hother, h.backups] at hb
      exact .inr ⟨hother, hb⟩
  have hold : ∀ other b, v.backups.lookup other = some b → .created b ∈ s.log ∧ b ≠ backup := by
    intro other b hb
    refine ⟨(h.base.backups other b (h.backups.symm ▸ hb)).2.1, ?_⟩
    rintro rfl
    exact hfree.1 other hb
  have hbase : Base p ⟨move s.disk target backup e, .replaced target backup e (s.disk backup) :: s.log, s.vars⟩ :=
    h.base.cons (.inl ⟨hcreated, hroot⟩) fun _ heq => by cases heq
  refine ⟨{ hbase with backups := fun other b hb => ?_ }, fun hguarded => ?_, h.pending,
    congrArg (assign target backup) h.backups,
    fun event hmem => List.mem_cons_of_mem _ (h.known event hmem), fun place e' hmem => ?_⟩
  · obtain ⟨rfl, rfl⟩ | ⟨-, hb⟩ := hlookup other b hb
    · exact ⟨hbackup, List.mem_cons_of_mem _ hcreated, h.pending.symm ▸ hpending⟩
    · obtain ⟨h1, h2, h3⟩ := h.base.backups other b (h.backups.symm ▸ hb)
      exact ⟨h1, List.mem_cons_of_mem _ h2, h3⟩
  · have hkept := h.kept hguarded
    refine ⟨fun other b e' haside => ?_, fun other b hb => ?_, fun other other' b hb hb' => ?_⟩
    · obtain ⟨former, hevent, hb⟩ := haside
      have hb := (List.mem_cons.mp hb).resolve_left fun heq => by cases heq
      obtain heq | hevent := List.mem_cons.mp hevent
      · cases heq
        exact .inr ⟨lookup_assign_self, hplace, hkind⟩
      · refine (hkept.originals other b e' ⟨former, hevent, hb⟩).imp Restored.cons fun hkeeps => ?_
        obtain ⟨hlookup', he', hkind'⟩ := hkeeps
        rw [h.backups] at hlookup'
        have hother : other ≠ target := by
          rintro rfl
          rw [hnew] at hlookup'
          cases hlookup'
        refine ⟨?_, (hmove b hb (hold other b hlookup').2).trans he', hkind'⟩
        change (assign target backup s.vars.backups).lookup other = _
        rw [lookup_assign_of_ne hother, h.backups]
        exact hlookup'
    · obtain ⟨-, rfl⟩ | ⟨-, hb⟩ := hlookup other b hb
      · exact ⟨e, hplace, hkind⟩
      · obtain ⟨hcreated', hne⟩ := hold other b hb
        obtain ⟨e', he', hkind'⟩ := hkept.filled other b (h.backups.symm ▸ hb)
        exact ⟨e', (hmove b hcreated' hne).trans he', hkind'⟩
    · obtain ⟨rfl, rfl⟩ | ⟨-, hlook⟩ := hlookup other b hb
      · obtain ⟨rfl, -⟩ | ⟨-, hb'⟩ := hlookup other' b hb'
        · rfl
        · exact absurd hb' (hfree.1 other')
      · obtain ⟨-, rfl⟩ | ⟨-, hb'⟩ := hlookup other' b hb'
        · exact absurd hlook (hfree.1 other)
        · exact hkept.distinct other other' b (h.backups.symm ▸ hlook) (h.backups.symm ▸ hb')
  · obtain ⟨hplace', he', hkind'⟩ := h.held place e' (List.mem_cons_of_mem _ hmem)
    refine ⟨List.mem_cons_of_mem _ hplace', (hmove place hplace' ?_).trans he', hkind'⟩
    rintro rfl
    exact hfree.2 e' hmem

end Aside

section Commit

theorem reserveBackupFile_meets (hguarded : v.guarded = true) (target : Path) :
    Meets (At p v) (reserveBackupFile p target)
      (fun backup s => (v.frees backup ∧ IsBackup backup) ∧ ∃ e₀ : Entry μ,
        At p { v with known := .created backup :: v.known, held := (backup, e₀) :: v.held } s) (fun _ => At p v) := by
  refine Meets.bind (mkstemp_meets hguarded (.inr rfl) _) fun backup => Meets.of_fact fun hplace => ?_
  obtain ⟨hfree, text, htext⟩ := hplace
  have hbackup : IsBackup backup := ⟨_, text, htext⟩
  refine Meets.bind (setVars_meets fun s h => ?_) fun _ => Meets.pure fun _ h => h
  obtain ⟨e₀, -, -, h⟩ := h
  refine ⟨⟨hfree, hbackup⟩, e₀, { h with
    base := { h.base with reserved := fun b hb => ?_ }, kept := fun hguarded => { h.kept hguarded with } }⟩
  rw [add] at hb
  split_ifs at hb
  · exact h.base.reserved b hb
  · obtain hb | hb := List.mem_append.mp hb
    · exact h.base.reserved b hb
    · rw [List.mem_singleton.mp hb]
      exact ⟨hbackup, h.known _ List.mem_cons_self⟩

theorem moveAside_meets (hguarded : v.guarded = true) (hnamed : Named p target) (hroot : p.root <+: target)
    (hpending : target ∈ v.pending.map Prod.fst) (hnew : v.backups.lookup target = none) :
    Meets (At p v) (moveAside p target)
      (fun _ s => ∃ backup, At p { v with backups := assign target backup v.backups } s) (fun _ => Guarded p) := by
  have hless : ∀ s, At p v s → Guarded p s := fun s h => At.guards h hguarded
  refine Meets.bind ((reserveBackupFile_meets hguarded target).weaken fun _ => hless) fun backup =>
    Meets.of_fact fun hplace => ?_
  obtain ⟨hfree, hbackup⟩ := hplace
  refine Meets.of_exists fun e₀ => ?_
  refine Meets.bind (Q := fun _ s => At p { v with backups := assign target backup v.backups }
    { s with vars := { s.vars with backups := assign target backup s.vars.backups } }) ?_ fun _ => ?_
  · refine (replace_meets (At.stable p _).bears fun s e h he hkind => ?_).weaken fun _ s h => At.guards h hguarded
    have hover := (h.held backup e₀ List.mem_cons_self).2.1
    have hplain : At p { v with held := (backup, e₀) :: v.held } s :=
      h.mono id rfl rfl (fun event hmem => h.known event (List.mem_cons_of_mem _ hmem)) fun _ hx => hx
    exact At.aside hplain hnamed hroot hpending hbackup hfree hnew (hkind e₀ hover)
  · exact setVars_meets fun s h => ⟨backup, h⟩

theorem refuseFolder_calm (target : Path) : Calm p v (refuseFolder p target) := by
  have hend : ∀ folder present : Bool, Calm p v
      (if folder = true then raise (.osError ("Cannot overwrite directory: ".toList ++ p.display target)) else pure present :
        Run μ Bool) := fun _ _ => Meets.ite (fun _ => raise_calm _) fun _ => pure_calm _
  refine bind_calm (targetExists_calm _) fun present => Meets.ite (fun _ => ?_) fun _ => hend _ _
  exact bind_calm (isDir_calm _) fun folder => hend _ _

/-- A fingerprint is that of the entry that is known to be there. -/
theorem fileFingerprint_meets (place : Path) :
    Meets (At p v) (fileFingerprint p place)
      (fun found s => (∀ mark e, found = some mark → (place, e) ∈ v.held → e.mark = mark) ∧ At p v s)
      (fun _ => At p v) := by
  refine orOsError_meets (Meets.bind (look_meets (At.stable p v) _ place) fun found => Meets.pure fun s h => ?_)
    fun _ => Meets.pure fun s h => ⟨(fun mark e heq => by cases heq), h⟩
  obtain ⟨hfound, h⟩ := h
  refine ⟨fun mark e heq hmem => ?_, h⟩
  rw [← hfound, (h.held place e hmem).2.1] at heq
  exact Option.some_inj.mp heq

/-- The staged file is published, where nothing is. -/
theorem installLocalStagedFile_meets {held : List (Path × Entry μ)} (hguarded : v.guarded = true)
    (hheld : v.held = (temp, e) :: held) (hcreated : .created temp ∈ v.known)
    (hfree : ({ v with held := held } : View μ).frees temp) (hroot : p.root <+: target) :
    Meets (At p v) (installLocalStagedFile p temp target)
      (fun _ => At p { v with known := .published temp target e :: v.known, held := held }) (fun _ => Guarded p) := by
  have hless : ∀ s, At p v s → Guarded p s := fun s h => At.guards h hguarded
  have hpublished : ∀ s disk, At p v s → (∀ other, other ≠ temp → other ≠ target → disk other = s.disk other) →
      s.disk target = none → At p { v with known := .published temp target e :: v.known, held := held }
        ⟨disk, .published temp target e :: s.log, s.vars⟩ := by
    intro s disk h hdisk hnone
    have hrest : At p { v with held := held } s :=
      h.mono id rfl rfl h.known fun x hx => hheld ▸ List.mem_cons_of_mem _ hx
    have hat : At p { v with held := held } ⟨disk, .published temp target e :: s.log, s.vars⟩ := by
      refine hrest.touch ⟨h.known _ hcreated, hroot⟩ rfl
        (fun other => other = temp ∨ other = target) (fun other hne => ?_) fun other e' htouched he' _ => ?_
      · exact hdisk other (fun h => hne (.inl h)) fun h => hne (.inr h)
      · obtain rfl | rfl := htouched
        · exact hfree
        · rw [hnone] at he'
          cases he'
    exact At.note hat List.mem_cons_self
  have hentry : ∀ s e', At p v s → s.disk temp = some e' → e' = e := by
    intro s e' h he'
    rw [(h.held temp e (hheld ▸ List.mem_cons_self)).2.1] at he'
    exact (Option.some_inj.mp he').symm
  refine Meets.bind (Q := fun linked s => if linked = true then
    At p { v with known := .published temp target e :: v.known, held := held } s else At p v s) ?_ fun linked => ?_
  · refine Meets.catching (E := fun _ => At p v) (Meets.bind (link_meets (At.stable p v) fun s e' h hnone he' => ?_)
      fun _ => Meets.pure fun s h => h) fun raised => ?_
    · obtain rfl := hentry s e' h he'
      exact hpublished s _ h (fun other _ hne => put_of_ne hne) hnone
    · cases raised with
      | fileExists message => exact Meets.raise hless
      | osError message => exact Meets.ite (fun _ => Meets.pure fun _ h => h) fun _ => Meets.raise hless
      | other => exact Meets.raise hless
  · cases linked with
    | true =>
      refine Meets.ite (fun _ => ?_) fun h => absurd rfl h
      refine Meets.weaken (orOsError_meets (unlink_calm (List.mem_cons_of_mem _ hcreated) hfree) fun _ => pure_calm _)
        fun _ s h => At.guards h hguarded
    | false =>
      refine Meets.ite (fun h => by cases h) fun _ => ?_
      refine (rename_meets (At.stable p v) fun s e' h hnone he' => ?_).weaken fun _ => hless
      obtain rfl := hentry s e' h he'
      exact hpublished s _ h (fun other htemp hne => move_of_ne htemp hne) hnone

end Commit

section Committing

variable {all done rest : Staged μ} {saved : List (Path × Path)} {f : Path × (Path × Entry μ)}

/-- The view while files are committed: those that are done are published, and the rest is still staged. -/
def committing (all : Staged μ) (saved : List (Path × Path)) (done rest : Staged μ) : View μ :=
  ⟨true, all.map fun f => (f.1, f.2.1), saved,
    (done.map fun f => .published f.2.1 f.1 f.2.2) ++ all.map fun f => .created f.2.1, rest.map Prod.snd⟩

theorem At.mark {mark : μ} (h : At p v s) (hpublished : .published temp target e ∈ s.log) (hmark : e.mark = mark) :
    At p v { s with vars := { s.vars with
      committed := add target s.vars.committed, marks := assign target mark s.vars.marks } } := by
  refine { h with
    base := { h.base with marks := fun other mark' hlookup => ?_ }, kept := fun hguarded => { h.kept hguarded with } }
  by_cases hother : other = target
  · rw [hother, lookup_assign_self, Option.some_inj] at hlookup
    rw [hother, ← hlookup]
    exact ⟨temp, e, hpublished, hmark⟩
  · rw [lookup_assign_of_ne hother] at hlookup
    exact h.base.marks other mark' hlookup

theorem frees_committing (hlisted : Listed all) (hf : f ∈ all) (hrest : ∀ g ∈ rest, g ∈ all ∧ g.1 ≠ f.1)
    (h : At p (committing all saved done (f :: rest)) s) : (committing all saved (f :: done) rest).frees f.2.1 := by
  refine ⟨fun other hlookup => ?_, fun e hmem => ?_⟩
  · have htemp : IsTemp f.2.1 := (At.named h (List.mem_map_of_mem (f := fun f => (f.1, f.2.1)) hf)).2.2
    exact htemp.ne_backup (h.base.backups other f.2.1 (h.backups.symm ▸ hlookup)).1 rfl
  · obtain ⟨g, hg, heq⟩ := List.mem_map.mp hmem
    have htemp : g.2.1 = f.2.1 := by rw [heq]
    exact (hrest g hg).2 (congrArg Prod.fst (hlisted.temps g (hrest g hg).1 f hf htemp))

variable [DecidableEq μ]

theorem publish_meets (hlisted : Listed all) (hf : f ∈ all) (hrest : ∀ g ∈ rest, g ∈ all ∧ g.1 ≠ f.1) :
    Meets (At p (committing all saved done (f :: rest))) (publish p f.1 f.2.1)
      (fun _ => At p (committing all saved (f :: done) rest)) (fun _ => Guarded p) := by
  have hless : ∀ done rest s, At p (committing all saved done rest) s → Guarded p s := fun _ _ s h => At.guards h rfl
  have hpending : (f.1, f.2.1) ∈ (committing all saved done (f :: rest)).pending :=
    List.mem_map_of_mem (f := fun f => (f.1, f.2.1)) hf
  refine Meets.of_pre (fun s h => frees_committing hlisted hf hrest h) fun hfree => ?_
  refine Meets.of_pre (fun s h => At.named h hpending) fun hnamed => ?_
  refine Meets.bind ((fileFingerprint_meets _).weaken fun _ => hless _ _) fun found => Meets.of_fact fun hfound => ?_
  cases found with
  | none => exact Meets.raise (hless _ _)
  | some mark =>
    have hmark : f.2.2.mark = mark := hfound mark f.2.2 rfl List.mem_cons_self
    have hcreated : .created f.2.1 ∈ (committing all saved done (f :: rest)).known :=
      List.mem_append_right _ (List.mem_map_of_mem (f := fun f => Event.created f.2.1) hf)
    refine Meets.bind (installLocalStagedFile_meets rfl rfl hcreated hfree hnamed.2.1) fun _ => ?_
    refine Meets.bind (Q := fun _ => At p (committing all saved (f :: done) rest)) (setVars_meets fun s h => ?_)
      fun _ => ?_
    · exact At.mark h (h.known _ List.mem_cons_self) hmark
    refine Meets.bind ((fileFingerprint_meets _).weaken fun _ => hless _ _) fun now => ?_
    exact Meets.require (fun _ _ h => h.2) fun _ s h => hless _ _ s h.2

theorem commitFile_meets (hlisted : Listed all) (hf : f ∈ all) (hrest : ∀ g ∈ rest, g ∈ all ∧ g.1 ≠ f.1)
    (hnew : saved.lookup f.1 = none) :
    Meets (At p (committing all saved done (f :: rest))) (commitFile p f.1 f.2.1)
      (fun _ s => ∃ saved', (∀ target, target ≠ f.1 → saved'.lookup target = saved.lookup target) ∧
        At p (committing all saved' (f :: done) rest) s) (fun _ => Guarded p) := by
  have hless : ∀ s, At p (committing all saved done (f :: rest)) s → Guarded p s := fun s h => At.guards h rfl
  have hpending : (f.1, f.2.1) ∈ (committing all saved done (f :: rest)).pending :=
    List.mem_map_of_mem (f := fun f => (f.1, f.2.1)) hf
  refine Meets.of_pre (fun s h => At.named h hpending) fun hnamed => ?_
  refine Meets.bind (checkCancelled_calm.weaken fun _ => hless) fun _ => ?_
  refine Meets.bind ((refuseFolder_calm _).weaken fun _ => hless) fun present => Meets.ite (fun _ => ?_) fun _ => ?_
  · refine Meets.bind (moveAside_meets rfl hnamed.1 hnamed.2.1 (List.mem_map_of_mem (f := Prod.fst) hpending) hnew)
      fun _ => Meets.of_exists fun backup => ?_
    refine (publish_meets hlisted hf hrest).mono (fun _ h => h) (fun _ s h => ⟨_, fun target hne => ?_, h⟩)
      fun _ _ h => h
    exact lookup_assign_of_ne hne
  · exact (publish_meets hlisted hf hrest).mono (fun _ h => h) (fun _ s h => ⟨saved, fun _ _ => rfl, h⟩) fun _ _ h => h

theorem commitFiles_meets (hlisted : Listed all) (hrest : ∀ g ∈ rest, g ∈ all) (hnodup : (rest.map Prod.fst).Nodup)
    (hnew : ∀ g ∈ rest, saved.lookup g.1 = none) :
    Meets (At p (committing all saved done rest)) (commitFiles p (rest.map fun f => (f.1, f.2.1)))
      (fun _ s => ∃ saved', At p (committing all saved' (rest.reverse ++ done) []) s) (fun _ => Guarded p) := by
  induction rest generalizing saved done with
  | nil => exact Meets.pure fun s h => ⟨saved, h⟩
  | cons f rest ih =>
    obtain ⟨hf, hrest⟩ := List.forall_mem_cons.mp hrest
    obtain ⟨hf', hnodup⟩ := List.nodup_cons.mp hnodup
    obtain ⟨hfirst, hnew⟩ := List.forall_mem_cons.mp hnew
    have hother : ∀ g ∈ rest, g ∈ all ∧ g.1 ≠ f.1 := fun g hg =>
      ⟨hrest g hg, fun heq => hf' (heq ▸ List.mem_map_of_mem hg)⟩
    refine Meets.bind (commitFile_meets hlisted hf hother hfirst) fun _ => Meets.of_exists fun saved' =>
      Meets.of_fact fun hsaved => ?_
    rw [List.reverse_cons, List.append_assoc, List.singleton_append]
    refine ih hrest hnodup fun g hg => ?_
    rw [hsaved g.1 (hother g hg).2]
    exact hnew g hg

omit [DecidableEq μ] in
theorem checkTargets_calm (pending : List (Path × Path)) : Calm p v (checkTargets p pending) := by
  induction pending with
  | nil => exact pure_calm _
  | cons entry pending ih => exact bind_calm (refuseFolder_calm _) fun _ => ih

/-- All files are published. -/
def Committed (p : Pull μ) (s : State μ) : Prop :=
  ∃ v : View μ, (v.guarded = true ∧ v.held = [] ∧
    ∀ x ∈ files p, ∃ temp e, e.content = x.2 ∧ .published temp x.1 e ∈ v.known) ∧ At p v s

theorem commit_meets : Meets (Received p (files p)) (commit p) (fun _ => Committed p) (fun _ => Guarded p) := by
  refine Meets.of_exists fun all => Meets.of_fact fun hfiles => ?_
  obtain ⟨hlisted, hcontents⟩ := hfiles
  refine Meets.bind (Q := fun pending s =>
      pending = (all.map fun f => (f.1, f.2.1)) ∧ At p (committing all [] [] all) s)
    (Meets.read fun s h => ⟨h.pending, h.mono id rfl rfl (fun event hmem => ?_) fun _ hx => hx⟩)
    fun pending => Meets.of_fact fun hpending => ?_
  · obtain ⟨f, hf, rfl⟩ := List.mem_map.mp hmem
    exact (h.held f.2.1 f.2.2 (List.mem_map_of_mem hf)).1
  subst hpending
  refine Meets.bind ((checkTargets_calm _).weaken fun _ s h => At.guards h rfl) fun _ => ?_
  refine Meets.bind (commitFiles_meets hlisted (fun _ hg => hg) hlisted.targets fun _ _ => rfl) fun _ =>
    Meets.of_exists fun saved => ?_
  refine checkCancelled_calm.mono (fun _ h => h) (fun _ s h => ⟨_, ⟨rfl, rfl, fun x hx => ?_⟩, h⟩) fun _ s h =>
    At.guards h rfl
  rw [← hcontents] at hx
  obtain ⟨f, hf, rfl⟩ := List.mem_map.mp hx
  refine ⟨f.2.1, f.2.2, rfl, List.mem_append_left _ (List.mem_map.mpr ⟨f, ?_, rfl⟩)⟩
  exact List.mem_append_left _ (List.mem_reverse.mpr hf)

end Committing

end OpenAdb.Transfer.CommittedFiles
