import OpenAdb.Acbridge.Trust

namespace OpenAdb.Acbridge.Gate

open OpenAdb.Lib.PyText OpenAdb.Lib.Encoding OpenAdb.Lib.Effects OpenAdb.Lib.EventLog
open OpenAdb.Commands.Results (CommandResult contains)
open OpenAdb.Acbridge.Device OpenAdb.Acbridge.Probe OpenAdb.Acbridge.Maintenance OpenAdb.Acbridge.Trust

variable (u : Tables) (sha256 : Bytes → Bytes) (w : World)

/-- A script that names a component of the package, or its provider. -/
def launches (args : List Text) : Bool :=
  match args with
  | [first, script] => first = "shell".toList &&
      (contains (package ++ '/' :: componentPackage ++ ['.']) script ||
        contains ("content://".toList ++ hostStatusAuthority) script)
  | _ => false

def VerifiedBefore (log : Log) : Prop := ∃ past, past <:+ log ∧ Verified u past

/-- Every command that starts a part of the helper has a verification before it. -/
def Guarded (log : Log) : Prop :=
  Each (fun past e => ∀ call reply, e = .adb call reply → launches call.args = true → VerifiedBefore u past) log

/-- The event is set right after the helper was found installed. -/
def Gap (log : Log) : Prop :=
  ∃ message later, ensureInstalled u w true log = (.ok (true, message), later) ∧ w.isSet later = true

inductive Entry
  | ensureTrusted
  | startPermissionHost (backend : Text) (timeout : Int) (bridgeIsCurrent : Bool)
  | requestPrivilegeAccess (backend : Text) (timeout : Int) (bridgeIsCurrent : Bool) (hostRequestId : Text)
  | deletePath (path : Text) (recursive useRoot : Bool) (timeout : Int)

/-- What the gate promises of one call. -/
def Entry.Safe : Entry → Prop
  | ensureTrusted => ∀ message log, Trust.ensureTrusted u sha256 w [] = (.ok (true, message), log) → Verified u log
  | startPermissionHost backend timeout bridgeIsCurrent =>
    bridgeIsCurrent = false → Guarded u (Trust.startPermissionHost u sha256 w backend timeout bridgeIsCurrent []).2
  | requestPrivilegeAccess backend timeout bridgeIsCurrent hostRequestId => bridgeIsCurrent = false →
      Guarded u (Trust.requestPrivilegeAccess u sha256 w backend timeout bridgeIsCurrent hostRequestId []).2
  | deletePath path recursive useRoot timeout =>
    Guarded u (Trust.deletePath u sha256 w path recursive useRoot timeout []).2

/-- The gate is asked, and the event is set in its gap. The other callers look at the event again. -/
def Entry.OpensInGap : Entry → Prop
  | ensureTrusted => Gap u w []
  | startPermissionHost backend _ bridgeIsCurrent =>
    (normalizeId u backend = "root".toList ∨ normalizeId u backend = "shizuku".toList) ∧ bridgeIsCurrent = false ∧
      w.isSet [] = false ∧ Gap u w [.check false]
  | requestPrivilegeAccess .. | deletePath .. => False

variable {u sha256 w} {P : Log → Prop}

def IsSetup (w : World) (args : List Text) : Prop := IsProbe args ∨ args = installWithPermissions w

theorem outcome_log {α : Type} {x : Except Raised α × Log} {Q : α → Log → Prop} {E : Raised → Log → Prop}
    (h : Outcome Q E x) (hQ : ∀ a log, Q a log → P log) (hE : ∀ e log, E e log → P log) : P x.2 := by
  obtain ⟨outcome, log⟩ := x
  cases outcome with
  | ok a => exact hQ a log h
  | error e => exact hE e log h

theorem confirmInstalled_keeps (hP : Stable IsProbe P) (requireCurrent : Bool) :
    Meets P (confirmInstalled u w requireCurrent) (fun _ => P) (fun _ => P) := by
  refine Meets.bind (probeInstalledVersion_meets hP) fun probe => ?_
  refine Meets.ite (fun _ => Meets.pure fun _ h => h.keeps) fun _ => Meets.ite (fun _ => Meets.pure fun _ h => h.keeps)
    fun _ => Meets.ite (fun _ => Meets.pure fun _ h => h.keeps) fun _ => ?_
  exact Meets.ite (fun _ => Meets.pure fun _ h => h.keeps) fun _ => Meets.ite (fun _ => Meets.pure fun _ h => h.keeps)
    fun _ => Meets.pure fun _ h => h.keeps

theorem ensureInstalled_keeps (hP : Stable (IsSetup w) P) (requireCurrent : Bool) :
    Meets P (ensureInstalled u w requireCurrent) (fun _ => P) (fun _ => P) := by
  have hprobe : Stable IsProbe P := hP.mono fun _ => .inl
  refine Meets.bind (installationGuard_keeps hP) fun acquired => Meets.ite (fun _ => Meets.pure fun _ h => h) fun _ => ?_
  refine Meets.bind (check_keeps hP) fun early => Meets.ite (fun _ => Meets.pure fun _ h => h.1) fun _ => ?_
  refine Meets.bind ((probeInstalledVersion_meets hprobe).mono (fun _ h => h.1) (fun _ _ h => h.keeps)
    (fun _ _ h => h)) fun probe => ?_
  refine Meets.ite (fun _ => Meets.pure fun _ h => h) fun _ => Meets.ite (fun _ => Meets.pure fun _ h => h) fun _ =>
    Meets.ite (fun _ => Meets.pure fun _ h => h) fun _ => ?_
  refine Meets.bind (Q := fun _ => P) (Meets.look fun log hlog => hP log _ (only_of_call rfl) hlog) fun found =>
    Meets.ite (fun _ => Meets.pure fun _ h => h) fun _ => ?_
  refine Meets.bind ((watched_meets hP (.inr rfl)).mono (fun log hlog => ⟨hlog, Ends.nil log⟩) (fun _ _ h => h.keeps)
    (fun _ _ h => h)) fun answer => ?_
  cases answer with
  | none => exact Meets.pure fun _ h => h
  | some result =>
    refine Meets.ite (fun _ => Meets.ite (fun _ => Meets.ite (fun _ => Meets.pure fun _ h => h) fun _ =>
      Meets.pure fun _ h => h) fun _ => Meets.pure fun _ h => h) fun _ => Meets.ite (fun _ => Meets.pure fun _ h => h)
      fun _ => confirmInstalled_keeps hprobe requireCurrent

/-- In the gap the gate lets the call through, and does no more than look at the event. -/
theorem ensureTrusted_gap {log later : Log} {message : Text}
    (hinstalled : ensureInstalled u w true log = (.ok (true, message), later)) (hset : w.isSet later = true) :
    ensureTrusted u sha256 w log = (.ok (true, message), .check true :: later) := by
  have hcheck : check w later = (.ok true, .check true :: later) := by
    simp [check, look, hset]
  rw [ensureTrusted, bind_ok hinstalled, if_neg (by simp), bind_ok hcheck, if_pos rfl]
  rfl

theorem ensureTrusted_meets (hP : Stable (IsSetup w) P) (hv : Stable IsVerification P)
    (hsha : Function.Injective sha256) {log : Log} (hlog : P log) :
    Outcome (fun r later => P later ∧ (r.1 = true → Verified u later ∨ Gap u w log ∧ w.isSet later = true))
      (fun _ => P) (ensureTrusted u sha256 w log) := by
  have hkeeps := ensureInstalled_keeps (u := u) hP true log hlog
  cases hrun : ensureInstalled u w true log with
  | mk outcome later =>
    rw [hrun] at hkeeps
    match outcome, hrun with
    | .error e, hrun =>
      rw [ensureTrusted, bind_error hrun]
      exact hkeeps
    | .ok (false, message), hrun =>
      rw [ensureTrusted, bind_ok hrun, if_pos rfl]
      exact ⟨hkeeps, fun h => by cases h⟩
    | .ok (true, message), hrun =>
      by_cases hset : w.isSet later = true
      · rw [ensureTrusted_gap hrun hset]
        exact ⟨hP later _ (only_of_call rfl) hkeeps, fun _ => .inr ⟨⟨message, later, hrun, hset⟩, w.sticky _ _ hset⟩⟩
      · rw [Bool.not_eq_true] at hset
        have hcheck : check w later = (.ok false, .check false :: later) := by
          simp [check, look, hset]
        rw [ensureTrusted, bind_ok hrun, if_neg (by simp), bind_ok hcheck, if_neg Bool.false_ne_true]
        have hverify : Meets P (do
            let trusted ← verifyBundledApk u sha256 w
            if trusted.1 = false then pure (false, trusted.2) else pure (true, message))
            (fun r later => P later ∧ (r.1 = true → Verified u later)) (fun _ => P) := by
          refine Meets.bind (verifyBundledApk_meets hv hsha) fun verdict => Meets.ite (fun _ => Meets.pure
            fun _ h => ⟨h.1, fun ht => by cases ht⟩) fun htrue => Meets.pure fun _ h => ⟨h.1, fun _ => h.2 ?_⟩
          rwa [Bool.not_eq_false] at htrue
        exact (hverify _ (hP later _ (only_of_call rfl) hkeeps)).mono (fun _ _ h => ⟨h.1, fun ht => .inl (h.2 ht)⟩)
          (fun _ _ h => h)

theorem VerifiedBefore.cons {log : Log} (h : VerifiedBefore u log) (e : Event) : VerifiedBefore u (e :: log) := by
  obtain ⟨past, hpast, hverified⟩ := h
  exact ⟨past, List.IsSuffix.trans hpast (List.suffix_cons e log), hverified⟩

theorem VerifiedBefore.of_verified {log : Log} (h : Verified u log) : VerifiedBefore u log :=
  ⟨log, List.suffix_rfl, h⟩

theorem guarded_stable : Stable (fun args => launches args = false) (Guarded u) := by
  intro log e he hlog
  refine ⟨fun call reply hcall hlaunch => ?_, hlog⟩
  have hfalse : launches call.args = false := he call (by rw [hcall]; rfl)
  rw [hfalse] at hlaunch
  cases hlaunch

theorem trusted_stable : Stable (fun _ => True) (fun log => Guarded u log ∧ VerifiedBefore u log) :=
  fun _ e _ hlog => ⟨⟨fun _ _ _ _ => hlog.2, hlog.1⟩, hlog.2.cons e⟩

theorem unguarded_stable : Stable (fun _ => True) (fun log => ¬Guarded u log) :=
  fun _ _ _ hlog hguarded => hlog hguarded.2

/-- No command has read an APK. -/
def Unread (log : Log) : Prop := ∀ e ∈ log, e.Only (fun args => ∀ path, args ≠ execOutCat path)

theorem unread_stable : Stable (fun args => ∀ path, args ≠ execOutCat path) Unread :=
  fun _ _ he hlog => List.forall_mem_cons.mpr ⟨he, hlog⟩

theorem Unread.not_verified {log : Log} (h : Unread log) : ¬Verified u log := by
  rintro ⟨basePath, path, size, read, bytes, hends, -⟩
  have hmem := hends.mem (List.mem_cons_of_mem _ List.mem_cons_self)
  exact h _ hmem _ rfl basePath rfl

theorem Unread.not_before {log : Log} (h : Unread log) : ¬VerifiedBefore u log := by
  rintro ⟨past, hpast, hverified⟩
  exact Unread.not_verified (fun e he => h e (hpast.subset he)) hverified

theorem shell_ne_cat (script path : Text) : shell script ≠ execOutCat path := by
  intro h
  have hlength : 2 = 3 := congrArg List.length h
  omega

/-- The commands with a fixed text start no component. -/
theorem launches_fixed : launches pmPath = false ∧ launches pmListPackages = false ∧ launches dumpsysPackage = false ∧
    launches (shell "true".toList) = false := by
  decide +kernel

theorem launches_setup {args : List Text} (h : IsSetup w args) : launches args = false := by
  obtain (rfl | rfl | rfl) | rfl := h
  · exact launches_fixed.1
  · exact launches_fixed.2.1
  · exact launches_fixed.2.2.1
  · rfl

theorem launches_verification {args : List Text} (h : IsVerification args) : launches args = false := by
  obtain rfl | ⟨path, rfl⟩ | ⟨path, rfl⟩ := h
  · exact launches_fixed.1
  · rfl
  · rfl

theorem unread_setup {args : List Text} (h : IsSetup w args) : ∀ path, args ≠ execOutCat path := by
  obtain (rfl | rfl | rfl) | rfl := h
  · exact shell_ne_cat _
  · exact shell_ne_cat _
  · exact shell_ne_cat _
  · intro path hpath
    have hhead : some "install".toList = some "exec-out".toList := congrArg List.head? hpath
    exact absurd hhead (by decide)

/-- The gate itself starts no part of the helper. -/
theorem ensureTrusted_guarded (hsha : Function.Injective sha256) {log : Log} (hlog : Guarded u log) :
    Outcome (fun r later => Guarded u later ∧ (r.1 = true → Verified u later ∨ Gap u w log ∧ w.isSet later = true))
      (fun _ => Guarded u) (ensureTrusted u sha256 w log) :=
  ensureTrusted_meets (guarded_stable.mono fun _ => launches_setup) (guarded_stable.mono fun _ => launches_verification)
    hsha hlog

/-- After the gate and a look at the event that finds it unset, everything is guarded. -/
theorem guarded_after_gate (hsha : Function.Injective sha256) {α : Type} {f : Bool × Text → Bool → Exchange α}
    (hset : ∀ r, Meets (Guarded u) (f r true) (fun _ => Guarded u) (fun _ => Guarded u))
    (hrefused : ∀ message, Meets (Guarded u) (f (false, message) false) (fun _ => Guarded u) (fun _ => Guarded u))
    (htrusted : ∀ message, Kept (f (true, message) false)) :
    Meets (Guarded u) (ensureTrusted u sha256 w >>= fun r => check w >>= fun set => f r set) (fun _ => Guarded u)
      (fun _ => Guarded u) := by
  have hgate : Meets (Guarded u) (ensureTrusted u sha256 w)
      (fun r later => Guarded u later ∧ (r.1 = true → VerifiedBefore u later ∨ w.isSet later = true))
      (fun _ => Guarded u) := fun log hlog => (ensureTrusted_guarded hsha hlog).mono
    (fun _ _ h => ⟨h.1, fun ht => (h.2 ht).imp VerifiedBefore.of_verified And.right⟩) (fun _ _ h => h)
  refine Meets.bind hgate fun r => ?_
  refine Meets.bind (Q := fun set later => Guarded u later ∧ (set = false → r.1 = true → VerifiedBefore u later))
    (Meets.look fun log hlog => ⟨guarded_stable log _ (only_of_call rfl) hlog.1, fun hclear htrue => ?_⟩) fun set => ?_
  · refine ((hlog.2 htrue).resolve_right ?_).cons _
    rw [hclear]
    exact Bool.false_ne_true
  · cases set with
    | true => exact (hset r).mono (fun _ h => h.1) (fun _ _ h => h) (fun _ _ h => h)
    | false =>
      obtain ⟨success, message⟩ := r
      cases success with
      | false => exact (hrefused message).mono (fun _ h => h.1) (fun _ _ h => h) (fun _ _ h => h)
      | true =>
        exact (htrusted message _ trusted_stable).mono (fun _ h => ⟨h.1, h.2 rfl rfl⟩) (fun _ _ h => h.1)
          (fun _ _ h => h.1)

theorem guarded_nil : Guarded u [] := trivial

theorem check_guarded : Meets (Guarded u) (check w) (fun _ => Guarded u) (fun _ => Guarded u) :=
  Meets.look fun log hlog => guarded_stable log _ (only_of_call rfl) hlog

theorem runShell_guarded {script : Text} (h : launches (shell script) = false) (watched : Bool) :
    Meets (Guarded u) (runShell w script watched) (fun _ => Guarded u) (fun _ => Guarded u) :=
  (start_keeps (guarded_stable.call h) (fun _ => rfl) (fun _ => rfl)).mono (fun _ h => h) (fun _ _ h => h.1)
    (fun _ _ h => h)

theorem deletePath_guarded (hsha : Function.Injective sha256) (path : Text) (recursive useRoot : Bool)
    (timeout : Int) : Meets (Guarded u) (deletePath u sha256 w path recursive useRoot timeout) (fun _ => Guarded u)
      (fun _ => Guarded u) := by
  refine Meets.bind check_guarded fun early => Meets.ite (fun _ => Meets.pure fun _ h => h) fun _ => ?_
  refine guarded_after_gate hsha (fun _ => Meets.pure fun _ h => h) (fun message => ?_) fun message => ?_
  · exact Meets.bind (runShell_guarded launches_fixed.2.2.2 true) fun _ => Meets.pure fun _ h => h
  · exact kept_deleteThroughBridge path recursive useRoot timeout

theorem requestPrivilegeAccess_guarded (hsha : Function.Injective sha256) (backend : Text) (timeout : Int)
    (hostRequestId : Text) : Meets (Guarded u)
      (requestPrivilegeAccess u sha256 w backend timeout false hostRequestId) (fun _ => Guarded u)
      (fun _ => Guarded u) := by
  refine Meets.ite (fun _ => Meets.pure fun _ h => h) fun _ => Meets.bind check_guarded fun early =>
    Meets.ite (fun _ => Meets.pure fun _ h => h) fun _ => Meets.ite (fun _ => Meets.pure fun _ h => h) fun _ => ?_
  exact guarded_after_gate hsha (fun _ => Meets.pure fun _ h => h) (fun _ => Meets.pure fun _ h => h)
    fun _ => kept_startPrivilegeRequest _ _ _

theorem isHex_lower_or_digit {c : Char} (h : isHex c = true) : lowerAscii c ∨ c.isDigit = true := by
  rw [isHex, Bool.or_eq_true, Bool.and_eq_true, decide_eq_true_eq, decide_eq_true_eq] at h
  obtain h | h := h
  · exact .inr h
  · exact .inl ⟨h.1, by omega⟩

theorem casefold_hex {s : Text} (h : s.all isHex = true) : casefold u.toUnicodeData s = s := by
  rw [casefold]
  induction s with
  | nil => rfl
  | cons c s ih =>
    rw [List.all_cons, Bool.and_eq_true] at h
    have hc : u.casefold c = [c] :=
      (isHex_lower_or_digit h.1).elim (u.casefold_lower c) (u.casefold_digit c)
    rw [List.flatMap_cons, hc, ih h.2, List.singleton_append]

theorem isSpace_hex {c : Char} (h : isHex c = true) : u.isSpace c = false := by
  obtain h | h := isHex_lower_or_digit h
  · exact u.isSpace_lower c h
  · rw [Char.isDigit, Bool.and_eq_true, decide_eq_true_eq, decide_eq_true_eq] at h
    exact u.isSpace_digit c (.inr ⟨h.1, h.2⟩)

theorem strip_hex {s : Text} (h : s.all isHex = true) : strip u.toUnicodeData s = s := by
  have hspace : ∀ c ∈ s, u.isSpace c = false := fun c hc => isSpace_hex (List.all_eq_true.mp h c hc)
  have hdrop : s.dropWhile u.isSpace = s := by
    cases s with
    | nil => rfl
    | cons c s => rw [List.dropWhile_cons_of_neg (by simp [hspace c List.mem_cons_self])]
  rw [strip, hdrop, List.rdropWhile_eq_self_iff]
  intro hne
  rw [hspace _ (List.getLast_mem hne)]
  exact Bool.false_ne_true

/-- A fresh request id is in its normal form. -/
theorem normalizeId_requestId (id : RequestId) : normalizeId u id.text = id.text ∧ isRequestId id.text = true := by
  have hhex : id.text.all isHex = true := by
    have hvalid := id.valid
    rw [isRequestId, Bool.and_eq_true] at hvalid
    exact hvalid.2
  exact ⟨by rw [normalizeId, strip_hex hhex, casefold_hex hhex], id.valid⟩

theorem launches_of_infix {script : Text}
    (h : contains (package ++ '/' :: componentPackage ++ ['.']) script = true) : launches (shell script) = true := by
  simp only [launches, shell, h, Bool.true_or, decide_true, Bool.and_self]

theorem infix_within (a b c d : Text) : b <:+: a ++ b ++ c ++ d :=
  ⟨a, c ++ d, (List.append_assoc (a ++ b) c d).symm⟩

theorem launches_dismiss (id : Text) : launches (shell (dismissScript id)) = true := by
  have hcomponent : package ++ '/' :: componentPackage ++ ['.'] <:+: shellQuote permissionHostReceiver := by
    decide +kernel
  have hscript : shellQuote permissionHostReceiver <:+: dismissScript id := by
    unfold dismissScript
    exact infix_within _ _ _ _
  exact launches_of_infix (decide_eq_true (List.IsInfix.trans hcomponent hscript))

/-- The dismissal goes to the phone although the event is set, and nothing was verified. -/
theorem dismiss_unguarded (id : RequestId) :
    Meets Unread (dismissPermissionHost u w id.text) (fun _ log => ¬Guarded u log) (fun _ log => ¬Guarded u log) := by
  have hsend : Meets Unread (runShell w (dismissScript id.text) false) (fun _ log => ¬Guarded u log)
      (fun _ log => ¬Guarded u log) := by
    have hask : Meets Unread (ask (w.adb · ⟨shell (dismissScript id.text), false⟩)
        (.adb ⟨shell (dismissScript id.text), false⟩)) (fun _ log => ¬Guarded u log) (fun _ log => ¬Guarded u log) :=
      Meets.ask (fun log _ hlog _ hguarded => hlog.not_before (hguarded.1 _ _ rfl (launches_dismiss _)))
        (fun log _ hlog _ hguarded => hlog.not_before (hguarded.1 _ _ rfl (launches_dismiss _)))
    exact hask
  have honce : Meets Unread (dismissOnce u w id.text) (fun _ log => ¬Guarded u log) (fun _ log => ¬Guarded u log) := by
    refine Meets.bind (Q := fun _ log => ¬Guarded u log) (Meets.catching (Meets.bind hsend fun _ =>
      Meets.pure fun _ h => h) (fun _ => Meets.pure fun _ h => h) (fun _ h => h)) fun delivered => ?_
    exact Meets.ite (fun _ => kept_wait _ _ _ _ unguarded_stable) fun _ => Meets.pure fun _ h => h
  obtain ⟨hnormal, hvalid⟩ := normalizeId_requestId (u := u) id
  rw [dismissPermissionHost, hnormal, hvalid, if_neg (by simp)]
  refine Meets.bind honce fun first => ?_
  refine Meets.bind (Meets.ite (fun _ => Meets.pure fun _ h => h) fun _ => kept_dismissOnce _ _ unguarded_stable)
    fun closed => ?_
  exact Kept.catching ((Kept.runShell _ false).bind fun _ => Kept.pure _) (fun _ => Kept.pure _) _ unguarded_stable

/-- Opened while the event is set and nothing was verified, the host is dismissed, and that starts the receiver. -/
theorem openPermissionHost_unguarded (selected : Text) (timeout : Int) :
    Meets (fun log => w.isSet log = true ∧ Unread log) (openPermissionHost u w selected timeout)
      (fun _ log => ¬Guarded u log) (fun _ log => ¬Guarded u log) := by
  have hrefused : ∀ (id : RequestId) (message : Text), Meets (fun log => w.isSet log = true ∧ Unread log) (do
      let _ ← dismissPermissionHost u w id.text
      pure ({ backend := selected, requestId := id.text, started := false, message := message } :
        PermissionHostResult)) (fun _ log => ¬Guarded u log) (fun _ log => ¬Guarded u log) :=
    fun id message => (Meets.bind (dismiss_unguarded id) fun _ => Meets.pure fun _ h => h).mono (fun _ h => h.2)
      (fun _ _ h => h) (fun _ _ h => h)
  have hunstarted : ∀ script, Meets (fun log => w.isSet log = true ∧ Unread log) (runShell w script true)
      (fun _ log => w.isSet log = true ∧ Unread log) (fun _ _ => False) := by
    intro script log hlog
    rw [runShell, command, start, if_pos (by simpa using hlog.1)]
    refine ⟨w.sticky _ _ hlog.1, unread_stable log _ (fun call hcall => ?_) hlog.2⟩
    rw [← Option.some.inj hcall]
    exact shell_ne_cat script
  refine Meets.bind (Q := fun id log => (∃ fresh : RequestId, id = fresh.text) ∧ w.isSet log = true ∧ Unread log)
    (Meets.read fun log hlog => ⟨⟨w.requestId log, rfl⟩, hlog⟩) fun id => Meets.of_fact fun hid => ?_
  obtain ⟨fresh, rfl⟩ := hid
  refine Meets.bind (Q := fun started log => (∃ result, started = .inr result) ∧ w.isSet log = true ∧ Unread log)
    (Meets.catching (E := fun _ _ => False) ?_ (fun _ _ h => h.elim) (fun _ h => h.elim)) fun started =>
      Meets.of_fact fun hstarted => ?_
  · exact Meets.bind (hunstarted _) fun _ => Meets.bind (hunstarted _) fun result =>
      Meets.pure fun _ h => ⟨⟨result, rfl⟩, h⟩
  · obtain ⟨result, rfl⟩ := hstarted
    refine Meets.bind (Q := fun set log => set = true ∧ w.isSet log = true ∧ Unread log) (Meets.look fun log hlog =>
      ⟨hlog.1, w.sticky _ _ hlog.1, unread_stable log _ (only_of_call rfl) hlog.2⟩) fun set =>
        Meets.of_fact fun hset => ?_
    subst hset
    rw [if_pos rfl]
    exact hrefused fresh _

theorem unread_installed (requireCurrent : Bool) :
    Meets Unread (ensureInstalled u w requireCurrent) (fun _ => Unread) (fun _ => Unread) :=
  ensureInstalled_keeps (unread_stable.mono fun _ => unread_setup) requireCurrent

/-- In the gap the gate opens, and no file of the package was read. -/
theorem ensureTrusted_opens (sha256 : Bytes → Bytes) {log : Log} (hlog : Unread log) (hgap : Gap u w log) : ∃ message later,
    ensureTrusted u sha256 w log = (.ok (true, message), later) ∧ w.isSet later = true ∧ Unread later := by
  obtain ⟨message, later, hrun, hset⟩ := hgap
  have hunread : Unread later := by
    have hkeeps := unread_installed (u := u) (w := w) true log hlog
    rw [hrun] at hkeeps
    exact hkeeps
  exact ⟨message, _, ensureTrusted_gap hrun hset, w.sticky _ _ hset, unread_stable _ _ (only_of_call rfl) hunread⟩

theorem unread_nil : Unread [] := fun _ h => absurd h List.not_mem_nil

theorem not_safe_ensureTrusted (hgap : Gap u w []) : ¬Entry.ensureTrusted.Safe u sha256 w := by
  obtain ⟨message, later, hrun, -, hunread⟩ := ensureTrusted_opens sha256 unread_nil hgap
  intro hsafe
  exact hunread.not_verified (hsafe message later hrun)

theorem not_safe_startPermissionHost {backend : Text} (timeout : Int)
    (hbackend : normalizeId u backend = "root".toList ∨ normalizeId u backend = "shizuku".toList)
    (hclear : w.isSet [] = false) (hgap : Gap u w [.check false]) :
    ¬(Entry.startPermissionHost backend timeout false).Safe u sha256 w := by
  have hunread : Unread [.check false] := unread_stable [] _ (only_of_call rfl) unread_nil
  obtain ⟨message, later, hrun, hset, hlater⟩ := ensureTrusted_opens sha256 hunread hgap
  have hcheck : check w [] = (.ok false, [.check false]) := by
    simp [check, look, hclear]
  have hopen := openPermissionHost_unguarded (u := u) (normalizeId u backend) timeout later ⟨hset, hlater⟩
  intro hsafe
  refine outcome_log (P := fun log => ¬Guarded u log) hopen (fun _ _ h => h) (fun _ _ h => h) ?_
  have hguarded := hsafe rfl
  rw [startPermissionHost, if_neg (by tauto), bind_ok hcheck, if_neg Bool.false_ne_true, if_neg Bool.false_ne_true,
    bind_ok hrun, if_neg (by simp)] at hguarded
  exact hguarded

theorem safe_ensureTrusted (hsha : Function.Injective sha256) (hgap : ¬Gap u w []) :
    Entry.ensureTrusted.Safe u sha256 w := by
  intro message log hrun
  have hgate := ensureTrusted_guarded (u := u) (w := w) hsha guarded_nil
  rw [hrun] at hgate
  exact (hgate.2 rfl).resolve_right fun h => hgap h.1

theorem safe_startPermissionHost (hsha : Function.Injective sha256) (backend : Text) (timeout : Int)
    (hgap : ¬(Entry.startPermissionHost backend timeout false).OpensInGap u w) :
    (Entry.startPermissionHost backend timeout false).Safe u sha256 w := by
  intro _
  by_cases hbackend : normalizeId u backend ≠ "root".toList ∧ normalizeId u backend ≠ "shizuku".toList
  · rw [startPermissionHost, if_pos hbackend]
    exact guarded_nil
  rw [startPermissionHost, if_neg hbackend]
  cases hset : w.isSet [] with
  | true =>
    have hcheck : check w [] = (.ok true, [.check true]) := by
      simp [check, look, hset]
    rw [bind_ok hcheck, if_pos rfl]
    exact guarded_stable [] _ (only_of_call rfl) guarded_nil
  | false =>
    have hcheck : check w [] = (.ok false, [.check false]) := by
      simp [check, look, hset]
    have hno : ¬Gap u w [.check false] := fun h => hgap ⟨by tauto, rfl, hset, h⟩
    have hstart : Guarded u [.check false] := guarded_stable [] _ (only_of_call rfl) guarded_nil
    rw [bind_ok hcheck, if_neg Bool.false_ne_true, if_neg Bool.false_ne_true]
    have hgate : Meets (fun log => log = [.check false]) (ensureTrusted u sha256 w)
        (fun r later => Guarded u later ∧ (r.1 = true → VerifiedBefore u later)) (fun _ => Guarded u) := by
      intro log hlog
      subst hlog
      exact (ensureTrusted_guarded hsha hstart).mono (fun _ _ h => ⟨h.1, fun ht =>
        VerifiedBefore.of_verified ((h.2 ht).resolve_right fun h' => hno h'.1)⟩) (fun _ _ h => h)
    refine outcome_log (Q := fun _ => Guarded u) (E := fun _ => Guarded u) (Meets.bind hgate (fun r => ?_) _ rfl)
      (fun _ _ h => h) (fun _ _ h => h)
    refine Meets.ite (fun _ => Meets.pure fun _ h => h.1) fun hopen => ?_
    rw [Bool.not_eq_false] at hopen
    exact (kept_openPermissionHost _ timeout _ trusted_stable).mono (fun _ h => ⟨h.1, h.2 hopen⟩) (fun _ _ h => h.1)
      (fun _ _ h => h.1)

/-- The gate and its callers keep what they promise, but for a call whose event is set in the gap. -/
theorem safe_iff (hsha : Function.Injective sha256) (entry : Entry) :
    entry.Safe u sha256 w ↔ ¬entry.OpensInGap u w := by
  cases entry with
  | ensureTrusted => exact ⟨fun hsafe hgap => not_safe_ensureTrusted hgap hsafe, safe_ensureTrusted hsha⟩
  | startPermissionHost backend timeout bridgeIsCurrent =>
    cases bridgeIsCurrent with
    | true => exact ⟨fun _ h => Bool.noConfusion h.2.1, fun _ h => Bool.noConfusion h⟩
    | false =>
      exact ⟨fun hsafe hgap => not_safe_startPermissionHost timeout hgap.1 hgap.2.2.1 hgap.2.2.2 hsafe,
        safe_startPermissionHost hsha backend timeout⟩
  | requestPrivilegeAccess backend timeout bridgeIsCurrent hostRequestId =>
    refine ⟨fun _ h => h, fun _ hcurrent => ?_⟩
    subst hcurrent
    exact outcome_log (requestPrivilegeAccess_guarded hsha backend timeout hostRequestId [] guarded_nil)
      (fun _ _ h => h) (fun _ _ h => h)
  | deletePath path recursive useRoot timeout =>
    exact ⟨fun _ h => h, fun _ => outcome_log (deletePath_guarded hsha path recursive useRoot timeout [] guarded_nil)
      (fun _ _ h => h) (fun _ _ h => h)⟩

/-- A phone whose helper claims to be of the bundled version; the event is set after some steps. -/
def impostor (steps : Nat) : World where
  isSet log := steps ≤ log.length
  sticky log e h := by
    rw [decide_eq_true_eq] at h ⊢
    exact h.trans (Nat.le_succ _)
  adb _ call :=
    if call.args = pmPath then .ok (success "package:/data/app/base.apk\n")
    else if call.args = dumpsysPackage then .ok (success "  versionCode=31011 minSdk=24\n")
    else .ok (success "")
  binary _ _ := .ok (success "", [0])
  pathExists _ := true
  isFile _ := true
  size _ := .ok 1
  bytes _ := .ok [1]
  busy _ := 0
  sleeps _ := 0
  requestId _ := ⟨List.replicate 32 '0', isRequestId_zeros⟩
  apk := "ACBridge-3.1.0.apk".toList

theorem safe_iff_impostor : Entry.ensureTrusted.Safe Tables.ascii id (impostor 100) := by
  refine (safe_iff Function.injective_id Entry.ensureTrusted).mpr fun hgap => ?_
  obtain ⟨message, later, hrun, hset⟩ := hgap
  have hclear : (impostor 100).isSet (ensureInstalled Tables.ascii (impostor 100) true []).2 = false := by
    decide +kernel
  rw [hrun, hset] at hclear
  cases hclear

theorem gap_impostor {steps : Nat} {log : Log}
    (hrun : (ensureInstalled Tables.ascii (impostor steps) true log).1.toOption.any Prod.fst = true)
    (hset : (impostor steps).isSet (ensureInstalled Tables.ascii (impostor steps) true log).2 = true) :
    Gap Tables.ascii (impostor steps) log := by
  cases h : ensureInstalled Tables.ascii (impostor steps) true log with
  | mk outcome later =>
    rw [h] at hrun hset
    match outcome, h, hrun with
    | .ok (true, message), h, _ => exact ⟨message, later, h, hset⟩

/-- The helper of another build passes the gate, and is started, when the event is set in the gap. -/
theorem not_safe_impostor : ¬Entry.ensureTrusted.Safe Tables.ascii id (impostor 7) ∧
    ¬(Entry.startPermissionHost "root".toList 360 false).Safe Tables.ascii id (impostor 8) := by
  refine ⟨not_safe_ensureTrusted (gap_impostor (by decide +kernel) (by decide +kernel)), ?_⟩
  exact not_safe_startPermissionHost 360 (.inl (by decide)) (by decide)
    (gap_impostor (by decide +kernel) (by decide +kernel))

end OpenAdb.Acbridge.Gate
