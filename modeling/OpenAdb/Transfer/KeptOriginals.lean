import OpenAdb.Transfer.CommittedFiles
import Mathlib.Data.List.Infix

namespace OpenAdb.Transfer.KeptOriginals

open OpenAdb.Lib.Effects OpenAdb.Lib.Encoding OpenAdb.Lib.EventLog OpenAdb.Lib.PyText OpenAdb.Lib.SharedFiles
open OpenAdb.Commands.Results (CommandResult)
open OpenAdb.Transfer.TarPull OpenAdb.Transfer.PullSteps OpenAdb.Transfer.ReceivedFiles OpenAdb.Transfer.CommittedFiles

variable {μ : Type} {p : Pull μ} {v : View μ} {s : State μ} {target backup place : Path} {e : Entry μ}

section Backups

theorem lookup_pop {α β : Type} [DecidableEq α] [BEq α] [LawfulBEq α] {key other : α} (dict : List (α × β)) :
    (pop key dict).lookup other = if other = key then none else dict.lookup other := by
  induction dict with
  | nil => simp [pop]
  | cons entry dict ih =>
    obtain ⟨k, x⟩ := entry
    have hrest : (pop key dict).lookup other = if other = key then none else dict.lookup other := ih
    by_cases hkey : k = key
    · rw [pop, List.filter_cons_of_neg (by simpa using hkey)]
      refine hrest.trans ?_
      split_ifs with hother
      · rfl
      · rw [List.lookup_cons, beq_eq_false_iff_ne.mpr (hkey ▸ hother)]
    · rw [pop, List.filter_cons_of_pos (by simpa using hkey), List.lookup_cons, List.lookup_cons]
      by_cases hk : other = k
      · rw [beq_iff_eq.mpr hk, if_neg (hk ▸ hkey)]
      · rw [beq_eq_false_iff_ne.mpr hk]
        exact hrest

theorem removeBackups_calm {backups : List Path}
    (hbackups : ∀ backup ∈ backups, .created backup ∈ v.known ∧ v.frees backup) :
    Calm p v (removeBackups p backups) := by
  induction backups with
  | nil => exact pure_calm _
  | cons backup backups ih =>
    obtain ⟨hbackup, hbackups⟩ := List.forall_mem_cons.mp hbackups
    refine bind_calm (removeTempFile_calm hbackup.1 hbackup.2) fun _ => bind_calm (setVars_meets fun s h => ?_)
      fun _ => ih hbackups
    exact h.reset rfl rfl (fun b hb => (List.mem_filter.mp hb).1) rfl h.base.folders

/-- A backup that is still needed stays. -/
theorem cleanupUnprotectedBackups_calm (hheld : v.held = []) : Calm p v (cleanupUnprotectedBackups p) := by
  refine calm_learning (fun backups => backups.map .created) (fun s h event hmem => ?_) fun s h => ?_
  · obtain ⟨backup, hbackup, rfl⟩ := List.mem_map.mp hmem
    exact (h.base.reserved backup (List.mem_filter.mp hbackup).1).2
  · refine removeBackups_calm fun backup hbackup => ⟨List.mem_append_left _ (List.mem_map_of_mem hbackup),
      fun other hlookup => ?_, fun e hmem => ?_⟩
    · have hvalues := (List.mem_filter.mp hbackup).2
      rw [h.backups, Bool.not_eq_true', ← Bool.not_eq_true, List.contains_iff_mem] at hvalues
      exact hvalues (List.mem_map_of_mem (mem_of_lookup hlookup))
    · rw [hheld] at hmem
      cases hmem

/-- The original comes back from its backup. -/
theorem At.restore (h : At p v s) (hheld : v.held = []) (hlookup : v.backups.lookup target = some backup)
    (he : s.disk backup = some e) (hnamed : Named p target) (hroot : p.root <+: target)
    (hfree : FreeOrOurs s.log target) :
    At p { v with backups := pop target v.backups }
      ⟨move s.disk backup target e, .replaced backup target e (s.disk target) :: s.log,
        { s.vars with
          backups := pop target s.vars.backups
          reserved := s.vars.reserved.filter (· ≠ backup) }⟩ := by
  have hcreated : .created backup ∈ s.log := (h.base.backups target backup (h.backups.symm ▸ hlookup)).2.1
  have hother : ∀ other b, (pop target s.vars.backups).lookup other = some b →
      other ≠ target ∧ s.vars.backups.lookup other = some b := by
    intro other b hb
    rw [lookup_pop] at hb
    split_ifs at hb with hne
    exact ⟨hne, hb⟩
  have hbase : Base p ⟨move s.disk backup target e, .replaced backup target e (s.disk target) :: s.log, s.vars⟩ :=
    h.base.cons (.inr ⟨hcreated, hnamed, hroot, hfree⟩) fun _ heq => by cases heq
  refine ⟨{ hbase with
    backups := fun other b hb => hbase.backups other b (hother other b hb).2
    reserved := fun b hb => hbase.reserved b (List.mem_filter.mp hb).1 }, fun hguarded => ?_, h.pending,
    congrArg (pop target) h.backups, fun event hmem => List.mem_cons_of_mem _ (h.known event hmem),
    fun place e' hmem => ?_⟩
  · have hkept := h.kept hguarded
    have hmove : ∀ other b, other ≠ target → s.vars.backups.lookup other = some b →
        move s.disk backup target e b = s.disk b := by
      intro other b hne hb
      refine move_of_ne ?_ (At.ne_created h hnamed (h.base.backups other b hb).2.1)
      rintro rfl
      exact hne (hkept.distinct other target b hb (h.backups.symm ▸ hlookup))
    refine ⟨fun other b e' haside => ?_, fun other b hb => ?_, fun other other' b hb hb' => ?_⟩
    · obtain ⟨former, hevent, hb⟩ := haside
      have hb := (List.mem_cons.mp hb).resolve_left fun heq => by cases heq
      have hevent := (List.mem_cons.mp hevent).resolve_left fun heq => by
        cases heq
        exact At.ne_created h hnamed hb rfl
      obtain hrestored | ⟨hlookup', he', hkind'⟩ := hkept.originals other b e' ⟨former, hevent, hb⟩
      · exact .inl hrestored.cons
      by_cases hsame : other = target
      · rw [hsame, h.backups, hlookup, Option.some_inj] at hlookup'
        rw [← hlookup', he, Option.some_inj] at he'
        rw [hsame, ← hlookup', ← he']
        exact .inl ⟨_, List.mem_cons_self⟩
      · refine .inr ⟨?_, (hmove other b hsame hlookup').trans he', hkind'⟩
        change (pop target s.vars.backups).lookup other = _
        rw [lookup_pop, if_neg hsame]
        exact hlookup'
    · obtain ⟨hne, hb⟩ := hother other b hb
      obtain ⟨e', he', hkind'⟩ := hkept.filled other b hb
      exact ⟨e', (hmove other b hne hb).trans he', hkind'⟩
    · exact hkept.distinct other other' b (hother other b hb).2 (hother other' b hb').2
  · change (place, e') ∈ v.held at hmem
    rw [hheld] at hmem
    cases hmem

end Backups

section Rollback

/-- The last two looks have found nothing. -/
def Missed (log : Log μ) (place : Path) : Prop :=
  ∃ seen found earlier, log = .looked .isSymlink place seen :: .looked .exists place found :: earlier ∧
    seen.any Entry.isLink = false ∧ found.any Entry.leads = false

theorem told_bears {T : State μ → Prop} (hT : ∀ s disk, T s → T { s with disk := disk }) :
    Bears p.world (fun s => T s ∧ At p v s) (At p v) :=
  ⟨fun s h => ⟨hT s _ h.1, (At.stable p v).outside s h.2⟩, fun s _ h => (At.stable p v).quiet s _ rfl h.2⟩

theorem targetExists_tells (target : Path) :
    Meets (At p v) (targetExists p target)
      (fun present s => (present = false → Missed s.log target) ∧ At p v s) (fun _ => At p v) := by
  have hexists : Meets (At p v) (existsAt p.world target) (fun present s =>
      (∃ found past, s.log = .looked .exists target found :: past ∧ found.any Entry.leads = present) ∧ At p v s)
      (fun _ => At p v) := by
    refine Meets.bind (look_bears (At.stable p v).bears fun s h => ?_) fun found => Meets.pure fun s h => h
    exact ⟨⟨_, s.log, rfl, rfl⟩, (At.stable p v).quiet s _ rfl h⟩
  refine Meets.bind hexists fun present => Meets.ite (fun _ => Meets.pure fun s h => ⟨(fun heq => by cases heq), h.2⟩)
    fun habsent => ?_
  rw [Bool.not_eq_true] at habsent
  subst habsent
  refine Meets.bind (look_bears (told_bears fun _ _ h => h) fun s h => ?_) fun seen => Meets.pure fun s h => h
  obtain ⟨⟨found, past, hlog, hfound⟩, h⟩ := h
  refine ⟨fun hlink => ⟨_, found, past, ?_, hlink, hfound⟩, (At.stable p v).quiet s _ rfl h⟩
  rw [hlog]

/-- The last look has found what was published. -/
theorem fileFingerprint_tells {temp : Path} {mark : μ} (hmark : e.mark = mark) :
    Meets (At p { v with known := .published temp target e :: v.known }) (fileFingerprint p target)
      (fun now s => (now = some mark → StillOurs s.log target) ∧ At p v s) (fun _ => At p v) := by
  have hforget : ∀ s, At p { v with known := .published temp target e :: v.known } s → At p v s := fun s h =>
    h.mono id rfl rfl (fun event hmem => h.known event (List.mem_cons_of_mem _ hmem)) fun _ hx => hx
  refine Meets.weaken (orOsError_meets (Meets.bind (Q := fun found s =>
      (found.map Entry.mark = some mark → StillOurs s.log target) ∧
        At p { v with known := .published temp target e :: v.known } s)
    (look_bears (At.stable p _).bears fun s h => ⟨fun hfound => ?_, (At.stable p _).quiet s _ rfl h⟩) fun found =>
      Meets.pure fun s h => ⟨h.1, hforget s h.2⟩) fun _ =>
        Meets.pure fun s h => ⟨(fun heq => by cases heq), hforget s h⟩)
    fun _ => hforget
  obtain ⟨found, hdisk, rfl⟩ := Option.map_eq_some_iff.mp hfound
  exact ⟨found, s.log, temp, e, by rw [hdisk], h.known _ List.mem_cons_self, hmark⟩

/-- What is said of a target names it. -/
def Names (p : Pull μ) (target : Path) (message : Text) : Prop := (p.display target ++ ": ".toList) <+: message

theorem names_of_text {text : Text} (h : ": ".toList <+: text) : Names p target (p.display target ++ text) :=
  (List.prefix_append_right_inj _).mpr h

theorem names_of_start {text : Text} (h : ": ".toList <+: text) (rest : Text) :
    Names p target (p.display target ++ text ++ rest) :=
  (names_of_text h).trans (List.prefix_append _ _)

/-- The view after a target was dealt with: its original is back, or the message names it. -/
structure Settles (p : Pull μ) (v v' : View μ) (target : Path) (error : Option Text) : Prop where
  guarded : v'.guarded = true
  held : v'.held = []
  pending : v'.pending = v.pending
  backups : ∀ other backup, v'.backups.lookup other = some backup → v.backups.lookup other = some backup
  back : error = none → v'.backups.lookup target = none
  named : ∀ message, error = some message → Names p target message

variable [DecidableEq μ]

theorem targetIsOurs_tells (present : Bool) :
    Meets (fun s => (present = false → Missed s.log target) ∧ At p v s) (targetIsOurs p target present)
      (fun ours s => (((present && !ours) = false → FreeOrOurs s.log target) ∧ (ours = true → StillOurs s.log target)) ∧
        At p v s) (fun _ => At p v) := by
  have hfalse : ∀ s : State μ, (present = false → Missed s.log target) ∧ At p v s →
      (((present && !false) = false → FreeOrOurs s.log target) ∧ (false = true → StillOurs s.log target)) ∧ At p v s := by
    refine fun s h => ⟨⟨fun hand => .inr (h.1 ?_), fun heq => by cases heq⟩, h.2⟩
    simpa using hand
  intro s h
  rw [targetIsOurs, bind_ok (read_run _ s)]
  cases hlookup : s.vars.marks.lookup target with
  | none => exact hfalse s h
  | some mark =>
    obtain ⟨temp, e, hpublished, hmark⟩ := h.2.base.marks target mark hlookup
    cases present with
    | false => exact hfalse s h
    | true =>
      refine Meets.bind (fileFingerprint_tells hmark) (fun now =>
        Meets.pure fun s h => ⟨⟨fun hand => ?_, fun hours => ?_⟩, h.2⟩)
        s (h.2.note hpublished)
      · exact .inl (h.1 (by simpa using hand))
      · exact h.1 (of_decide_eq_true hours)

theorem rollbackTarget_meets {temp : Path} (hguarded : v.guarded = true) (hheld : v.held = [])
    (hpending : (target, temp) ∈ v.pending) :
    Meets (At p v) (rollbackTarget p target) (fun error s => ∃ v', Settles p v v' target error ∧ At p v' s)
      (fun _ => At p v) := by
  refine Meets.of_pre (fun s h => At.named h hpending) fun hnamed => ?_
  obtain ⟨hnamed, hroot, -⟩ := hnamed
  have hmessage : ∀ message s, Names p target message → At p v s →
      ∃ v', Settles p v v' target (some message) ∧ At p v' s := by
    refine fun message s hnames h => ⟨v, ⟨hguarded, hheld, rfl, fun _ _ hb => hb, fun heq => ?_, fun m heq => ?_⟩, h⟩
    · cases heq
    · rw [← Option.some_inj.mp heq]
      exact hnames
  refine orOsError_meets ?_ fun message => Meets.pure fun s h => hmessage _ s (names_of_start List.prefix_rfl _) h
  refine Meets.reading (b := v.backups.lookup target) (fun s h => by rw [h.backups]) ?_
  refine Meets.bind (targetExists_tells _) fun present => Meets.bind (targetIsOurs_tells present) fun ours => ?_
  cases hbackup : v.backups.lookup target with
  | some backup =>
    refine Meets.ite (fun _ => Meets.pure fun s h => hmessage _ s ?_ h.2) fun hchanged => ?_
    · exact names_of_start (by decide) _
    rw [Bool.not_eq_true] at hchanged
    refine Meets.bind (Q := fun _ s => At p { v with backups := pop target v.backups } { s with vars := { s.vars with
      backups := pop target s.vars.backups, reserved := s.vars.reserved.filter (· ≠ backup) } })
      (replace_meets (told_bears fun _ _ h => h) fun s e h he _ =>
        At.restore h.2 hheld hbackup he hnamed hroot (h.1.1 hchanged)) fun _ => ?_
    refine Meets.bind (Q := fun _ => At p { v with backups := pop target v.backups }) (setVars_meets fun s h => h)
      fun _ => Meets.pure fun s h => ⟨{ v with backups := pop target v.backups }, ⟨hguarded, hheld, rfl,
        fun other b hb => ?_, fun _ => ?_, fun _ heq => ?_⟩, h⟩
    · change (pop target v.backups).lookup other = _ at hb
      rw [lookup_pop] at hb
      split_ifs at hb
      exact hb
    · exact (lookup_pop _).trans (if_pos rfl)
    · cases heq
  | none =>
    have hdone : ∀ s, At p v s → ∃ v', Settles p v v' target none ∧ At p v' s := by
      refine fun s h => ⟨v, ⟨hguarded, hheld, rfl, fun _ _ hb => hb, fun _ => hbackup, fun m heq => ?_⟩, h⟩
      cases heq
    refine Meets.bind (Q := fun _ s => (((present && !ours) = false → FreeOrOurs s.log target) ∧
      (ours = true → StillOurs s.log target)) ∧ At p v s) (Meets.read fun s h => h) fun committed =>
      Meets.ite (fun _ => Meets.ite (fun _ => ?_) fun hours => ?_) fun _ => Meets.pure fun s h => hdone s h.2
    · exact Meets.pure fun s h => hmessage _ s (names_of_text (by decide)) h.2
    · rw [Bool.not_eq_true, Bool.not_eq_false'] at hours
      refine Meets.bind (Q := fun _ => At p v) (unlink_meets (told_bears fun _ _ h => h) fun s h => ?_) fun _ =>
        Meets.pure fun s h => hdone s h
      refine h.2.placing ?_ rfl fun _ _ _ => ⟨fun other hlookup => ?_, fun e hmem => ?_⟩
      · cases s.disk target with
        | none => exact trivial
        | some e => exact .inr ⟨hroot, h.1.2 hours⟩
      · exact At.ne_created h.2 hnamed (h.2.base.backups other target (h.2.backups.symm ▸ hlookup)).2.1 rfl
      · rw [hheld] at hmem
        cases hmem

/-- Every original that is not back is named. -/
def Told (p : Pull μ) (v : View μ) (told : Text → Prop) : Prop :=
  ∀ target backup, v.backups.lookup target = some backup → ∃ message, told message ∧ Names p target message

theorem rollbackTargets_meets {targets : List Path} (hguarded : v.guarded = true) (hheld : v.held = [])
    (htargets : ∀ target ∈ targets, target ∈ v.pending.map Prod.fst) :
    Meets (At p v) (rollbackTargets p targets)
      (fun errors s => ∃ v', (v'.guarded = true ∧ v'.held = [] ∧ v'.pending = v.pending ∧
        (∀ other backup, v'.backups.lookup other = some backup → v.backups.lookup other = some backup) ∧
        ∀ target ∈ targets, ∀ backup, v'.backups.lookup target = some backup →
          ∃ message ∈ errors, Names p target message) ∧ At p v' s) (fun _ => Guarded p) := by
  induction targets generalizing v with
  | nil => exact Meets.pure fun s h => ⟨v, ⟨hguarded, hheld, rfl, fun _ _ hb => hb, by simp⟩, h⟩
  | cons target targets ih =>
    obtain ⟨htarget, hrest⟩ := List.forall_mem_cons.mp htargets
    obtain ⟨⟨_, temp⟩, hmem, rfl⟩ := List.mem_map.mp htarget
    refine Meets.bind ((rollbackTarget_meets hguarded hheld hmem).weaken fun _ s h => At.guards h hguarded)
      fun error => Meets.of_exists fun v₁ => Meets.of_fact fun hsettles => ?_
    refine Meets.bind (ih hsettles.guarded hsettles.held (hsettles.pending ▸ hrest)) fun errors =>
      Meets.pure fun s h => ?_
    obtain ⟨v', ⟨hguarded', hheld', hpending, hbackups, hnamed⟩, h⟩ := h
    refine ⟨v', ⟨hguarded', hheld', hpending.trans hsettles.pending,
      fun other b hb => hsettles.backups other b (hbackups other b hb),
      List.forall_mem_cons.mpr ⟨fun backup hb => ?_, fun target ht backup hb => ?_⟩⟩, h⟩
    · cases error with
      | none =>
        have hback := hsettles.back rfl
        rw [hbackups _ _ hb] at hback
        cases hback
      | some message => exact ⟨message, List.mem_append_left _ (List.mem_singleton_self _), hsettles.named message rfl⟩
    · obtain ⟨message, hmessage, hnames⟩ := hnamed target ht backup hb
      exact ⟨message, List.mem_append_right _ hmessage, hnames⟩

theorem rollbackReplacements_meets :
    Meets (Guarded p) (rollbackReplacements p)
      (fun errors s => ∃ v, (v.guarded = true ∧ v.held = [] ∧ Told p v (· ∈ errors)) ∧ At p v s) (fun _ => Guarded p) := by
  refine Meets.of_exists fun v => Meets.of_fact fun hv => ?_
  obtain ⟨hguarded, hheld⟩ := hv
  refine Meets.reading (b := (v.pending.map Prod.fst).reverse) (fun s h => by rw [h.pending]) ?_
  refine (rollbackTargets_meets hguarded hheld fun target ht => List.mem_reverse.mp ht).mono (fun _ h => h)
    (fun errors s h => ?_) fun _ _ h => h
  obtain ⟨v', ⟨hguarded', hheld', hpending, -, hnamed⟩, h⟩ := h
  refine ⟨v', ⟨hguarded', hheld', fun target backup hb => hnamed target (List.mem_reverse.mpr ?_) backup hb⟩, h⟩
  rw [← hpending, ← h.pending]
  exact (h.base.backups target backup (h.backups.symm ▸ hb)).2.2

end Rollback

section Main

/-- The files that were wanted are published: each one at its target, with the content that was received. -/
def Delivered (p : Pull μ) (s : State μ) : Prop :=
  ∀ x ∈ files p, ∃ temp e, .published temp x.1 e ∈ s.log ∧ e.content = x.2

/-- What was moved aside is back at its target; otherwise it is in its backup, and the text names its target. -/
def Preserved (p : Pull μ) (text : Text) (s : State μ) : Prop :=
  ∀ target backup e, Aside s.log target backup e →
    Restored s.log target backup e ∨ s.disk backup = some e ∧ (p.display target ++ ": ".toList) <:+: text

/-- What was moved aside is back at its target or in its backup. -/
def Retained (s : State μ) : Prop :=
  ∀ target backup e, Aside s.log target backup e → Restored s.log target backup e ∨ s.disk backup = some e

def Careful (p : Pull μ) (s : State μ) : Prop := Each (Allowed p) s.log

theorem retained_of_guarded (h : Guarded p s) : Careful p s ∧ Retained s := by
  obtain ⟨v, ⟨hguarded, -⟩, h⟩ := h
  exact ⟨h.base.careful, fun target backup e haside =>
    ((h.kept hguarded).originals target backup e haside).imp_right fun hkept => hkept.2.1⟩

/-- The text names every original that is still in its backup. -/
def Reported (p : Pull μ) (text : Text) (s : State μ) : Prop :=
  ∃ v : View μ, (v.guarded = true ∧ v.held = [] ∧ ∀ target backup, v.backups.lookup target = some backup →
    (p.display target ++ ": ".toList) <:+: text) ∧ At p v s

theorem Reported.preserved {text : Text} (h : Reported p text s) : Careful p s ∧ Preserved p text s := by
  obtain ⟨v, ⟨hguarded, -, hnamed⟩, h⟩ := h
  refine ⟨h.base.careful, fun target backup e haside => ?_⟩
  refine ((h.kept hguarded).originals target backup e haside).imp_right fun hkept => ⟨hkept.2.1, ?_⟩
  exact hnamed target backup (h.backups ▸ hkept.1)

/-- The wanted files are published, and nothing is said of the backups. -/
def Done (p : Pull μ) (s : State μ) : Prop :=
  ∃ v : View μ, (v.held = [] ∧ ∀ x ∈ files p, ∃ temp e, e.content = x.2 ∧ .published temp x.1 e ∈ v.known) ∧ At p v s

theorem Done.delivered (h : Done p s) : Careful p s ∧ Delivered p s := by
  obtain ⟨v, ⟨-, hfiles⟩, h⟩ := h
  refine ⟨h.base.careful, fun x hx => ?_⟩
  obtain ⟨temp, e, hcontent, hpublished⟩ := hfiles x hx
  exact ⟨temp, e, h.known _ hpublished, hcontent⟩

/-- How a result goes with the state that it leaves. -/
def Settled (p : Pull μ) (result : CommandResult) (s : State μ) : Prop :=
  if result.success = true then Done p s else Reported p result.stderr s

def Left (p : Pull μ) (s : State μ) : Prop := Done p s ∨ Guarded p s

theorem Loose.reported {text : Text} (h : Loose p s) : Reported p text s := by
  obtain ⟨pending, h⟩ := h
  exact ⟨_, ⟨rfl, rfl, fun _ _ hlookup => by cases hlookup⟩, h⟩

theorem infix_intercalate {sep message : Text} {messages : List Text} (h : message ∈ messages) :
    message <:+: sep.intercalate messages := by
  induction messages with
  | nil => cases h
  | cons first rest ih =>
    cases rest with
    | nil =>
      rw [List.mem_singleton.mp h, List.intercalate_singleton]
    | cons next rest =>
      rw [List.intercalate_cons_cons]
      obtain rfl | h := List.mem_cons.mp h
      · exact ⟨[], sep ++ sep.intercalate (next :: rest), by simp⟩
      · obtain ⟨before, after, heq⟩ := ih h
        exact ⟨first ++ sep ++ before, after, by rw [← heq]; simp⟩

theorem infix_withDetail {result : CommandResult} {message text : Text} {errors : List Text} (h : text ∈ errors) :
    text <:+: (withDetail result message errors).stderr := by
  rw [withDetail, if_pos (List.ne_nil_of_mem h)]
  have hjoined : text <:+: "; ".toList.intercalate errors := infix_intercalate h
  obtain ⟨before, after, heq⟩ := hjoined
  refine ⟨(if result.stderr ≠ [] then result.stderr ++ ['\n'] else []) ++
    (message ++ ("\nRollback warning: ".toList ++ before)), after, ?_⟩
  simp only [← heq, List.append_assoc]

variable [DecidableEq μ]

omit [DecidableEq μ] in
theorem reportFailure_meets (result : CommandResult) (errors : List Text) (message : Text) :
    Meets (fun s => ∃ v : View μ, (v.guarded = true ∧ v.held = [] ∧ Told p v (· ∈ errors)) ∧ At p v s)
      (reportFailure p result errors message) (Settled p) (fun _ => Guarded p) := by
  refine Meets.of_exists fun v => Meets.of_fact fun hv => ?_
  obtain ⟨hguarded, hheld, htold⟩ := hv
  refine Meets.bind ((ask_calm (p := p) _).weaken fun _ s h => At.guards h hguarded) fun cancelled =>
    Meets.pure fun s h => ?_
  have hreported : ∀ result', Reported p (withDetail result' message errors).stderr s := by
    refine fun result' => ⟨v, ⟨hguarded, hheld, fun target backup hlookup => ?_⟩, h⟩
    obtain ⟨text, hmem, hnames⟩ := htold target backup hlookup
    exact hnames.isInfix.trans (infix_withDetail hmem)
  have hfails : ∀ c : Bool, (if c = true then cancelledResult result else failedResult result message).success = false := by
    intro c
    cases c <;> rfl
  have hsuccess : (withDetail (if cancelled = true then cancelledResult result else failedResult result message) message
    errors).success = false := hfails cancelled
  rw [Settled, if_neg (Bool.not_eq_true _ ▸ hsuccess)]
  exact hreported _

omit [DecidableEq μ] in
theorem cleanup_guarded {x : Run μ Unit} (hx : ∀ v : View μ, v.held = [] → Calm p v x) :
    Meets (Guarded p) x (fun _ => Guarded p) (fun _ => Guarded p) :=
  Meets.of_exists fun v => Meets.of_fact fun hv => (hx v hv.2).mono (fun _ h => h) (fun _ _ h => ⟨v, hv, h⟩)
    fun _ _ h => ⟨v, hv, h⟩

theorem rolledBack_meets (result : CommandResult) (raised : Raised) :
    Meets (Guarded p) (rolledBack p result raised) (Settled p) (fun _ => Guarded p) := by
  refine Meets.bind rollbackReplacements_meets fun errors => ?_
  refine Meets.bind (Q := fun _ s => ∃ v : View μ, (v.guarded = true ∧ v.held = [] ∧ Told p v (· ∈ errors)) ∧ At p v s)
    (Meets.of_exists fun v => Meets.of_fact fun hv => (cleanupUnprotectedBackups_calm hv.2.1).mono (fun _ h => h)
      (fun _ _ h => ⟨v, hv, h⟩) fun _ s h => At.guards h hv.1) fun _ => ?_
  cases raised with
  | fileExists message => exact reportFailure_meets result errors message
  | osError message => exact reportFailure_meets result errors message
  | other =>
    refine Meets.pre (P := Guarded p) ?_ fun s h => ?_
    · refine Meets.bind (cleanup_guarded fun v hv => cleanupPendingFiles_calm hv) fun _ => ?_
      exact Meets.bind (cleanup_guarded fun v _ => cleanupCreatedDirectories_calm) fun _ => Meets.raise fun _ h => h
    · obtain ⟨v, hv, h⟩ := h
      exact At.guards h hv.1

omit [DecidableEq μ] in
/-- After all is published the backups may go. -/
theorem At.clear (h : At p v s) :
    At p { v with guarded := false, backups := [] } { s with vars := { s.vars with backups := [] } } :=
  { h with
    base := { h.base with backups := fun _ _ hlookup => by cases hlookup }
    kept := fun heq => by cases heq
    backups := rfl }

theorem finalize_meets {result : CommandResult} (hsuccess : result.success = true) :
    Meets (Received p (files p)) (finalize p result) (Settled p) (fun _ => Left p) := by
  refine Meets.bind commit_meets.trying fun committed => ?_
  cases committed with
  | error raised => exact (rolledBack_meets result raised).weaken fun _ _ h => .inr h
  | ok _ =>
    refine Meets.of_exists fun v => Meets.of_fact fun hv => ?_
    obtain ⟨hguarded, hheld, hfiles⟩ := hv
    let cleared : View μ := { v with guarded := false, backups := [] }
    have hdone : ∀ s, At p cleared s → Done p s := fun s h => ⟨cleared, ⟨hheld, hfiles⟩, h⟩
    refine Meets.bind (Q := fun _ => At p cleared) (setVars_meets fun s h => At.clear h) fun _ => ?_
    refine Meets.bind ((cleanupUnprotectedBackups_calm (v := cleared) hheld).weaken fun _ s h => .inl (hdone s h))
      fun _ => ?_
    refine Meets.bind ((cleanupPendingFiles_calm (v := cleared) hheld).weaken fun _ s h => .inl (hdone s h)) fun _ => ?_
    refine Meets.pure fun s h => ?_
    rw [Settled, if_pos hsuccess]
    exact hdone s h

theorem settle_meets (result : CommandResult) :
    Meets (Arrived p result.success) (settle p result) (Settled p) (fun _ => Left p) := by
  have hloose : ∀ s, Arrived p result.success s → Loose p s := by
    intro s h
    rw [Arrived] at h
    split_ifs at h
    · exact h.loose
    · exact h
  refine Meets.bind ((ask_meets (arrived_stable p _) _).weaken fun _ s h => .inr ?_) fun cancelled => ?_
  · obtain ⟨pending, h⟩ := hloose s h
    exact At.guards h rfl
  cases cancelled with
  | true => exact Meets.pure fun s h => Loose.reported (hloose s h)
  | false =>
    refine Meets.ite (fun hsuccess => ?_) fun hfailure => Meets.pure fun s h => ?_
    · have hsame : result.success = true := hsuccess
      refine (finalize_meets hsame).pre fun s h => ?_
      rwa [Arrived, if_pos hsame] at h
    · have hsame : ¬result.success = true := hfailure
      change Settled p result s
      rw [Settled, if_neg hsame]
      exact Loose.reported (hloose s h)

omit [DecidableEq μ] in
theorem cleanupFailed_meets (result : CommandResult) :
    Meets (Settled p result) (cleanupFailed p result) (fun _ => Settled p result) (fun _ => Left p) := by
  refine Meets.ite (fun _ => Meets.pure fun _ h => h) fun hfailure => ?_
  have hsettled : Settled p result = Reported p result.stderr := by
    funext s
    rw [Settled, if_neg hfailure]
  rw [hsettled]
  refine Meets.of_exists fun v => Meets.of_fact fun hv => ?_
  have hcalm : Calm p v (do
      cleanupPendingFiles p
      cleanupUnprotectedBackups p
      cleanupCreatedDirectories p) :=
    bind_calm (cleanupPendingFiles_calm hv.2.1) fun _ => bind_calm (cleanupUnprotectedBackups_calm hv.2.1) fun _ =>
      cleanupCreatedDirectories_calm
  exact Meets.mono hcalm (fun _ h => h) (fun _ _ h => ⟨v, hv, h⟩) fun _ s h => .inr (At.guards h hv.1)

theorem runFastTarPull_meets :
    Meets (At p (receiving [])) (runFastTarPull p) (fun report => Settled p report.result) (fun _ => Left p) := by
  refine Meets.bind (received_meets.weaken fun _ s h => .inr ?_) fun result => ?_
  · obtain ⟨pending, h⟩ := h
    exact At.guards h rfl
  refine Meets.bind (settle_meets result) fun result => Meets.bind (cleanupFailed_meets result) fun _ => ?_
  exact Meets.bind (Q := fun _ => Settled p result) (Meets.read fun _ h => h) fun _ => Meets.pure fun _ h => h

omit [DecidableEq μ] in
theorem at_start (disk : Disk Path μ) : At p (receiving []) (start disk) where
  base := ⟨trivial, by simp [start], by simp [start], by simp [start], by simp [start], by simp [start], by simp [start]⟩
  kept := fun _ => by
    refine ⟨fun _ _ _ haside => ?_, by simp [start], by simp [start]⟩
    obtain ⟨former, hevent, -⟩ := haside
    cases hevent
  pending := rfl
  backups := rfl
  known := fun _ hmem => by cases hmem
  held := fun _ _ hmem => by cases hmem

end Main

end OpenAdb.Transfer.KeptOriginals
