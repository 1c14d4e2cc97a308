import OpenAdb.Lib.PyText
import OpenAdb.Lib.Runs

namespace OpenAdb.Files.UploadConsent

open OpenAdb.Lib.PyText OpenAdb.Lib.Runs

variable {I : Type} [DecidableEq I]

inductive Transport
  | adb | p2p
  deriving DecidableEq

def P2P_TRANSPORT : Text := "acbridge_p2p".toList

def ADB_TRANSPORT : Text := "adb".toList

def Transport.value : Transport → Text
  | .adb => ADB_TRANSPORT
  | .p2p => P2P_TRANSPORT

/-- The two settings of a profile; `acknowledged` says that
`file_manager_p2p_security_acknowledged` is True. -/
structure Values where
  transport : Text
  acknowledged : Bool

def Values.restored (values : Values) : Transport :=
  if values.transport = P2P_TRANSPORT then .p2p else .adb

/-- A transfer plan, with what was so when it was built. -/
structure Plan (I : Type) where
  transport : Transport
  generation : Nat
  identity : I
  consented : Bool

/-- Who has asked for the security warning; a push keeps the generation of the
device context it has captured. -/
inductive Caller
  | selection | restored
  | push (generation : Nat)

inductive Dialog (I : Type)
  | install (generation : Nat)
  | security (previous : Transport) (expected : I) (caller : Caller)
  | write (generation : Nat)

structure Page (I : Type) where
  combo : Transport
  accepted : Transport
  acknowledged : List I
  nonce : Nat
  pending : Option (I × Nat)
  timer : Bool
  dialogActive : Bool
  waiting : Option (Plan I)

/-- The active profile and the settings of all profiles, the generation of the
device manager, the page and its open dialogs, the last one first. -/
structure State (I : Type) where
  identity : I
  values : I → Values
  synced : Bool
  generation : Nat
  page : Page I
  dialogs : List (Dialog I)
  started : List (Plan I)

/-- What the rest of the program answers to a push. -/
structure Surroundings where
  writable : Bool
  valid : Bool
  listing : Bool
  free : Bool

def State.setPage (s : State I) (page : Page I) : State I := { s with page := page }

def State.setValues (s : State I) (values : Values) : State I :=
  { s with values := Function.update s.values s.identity values }

/-- `_p2p_security_warning_required`. -/
def State.warningRequired (s : State I) (identity : I) : Bool :=
  !(s.values s.identity).acknowledged && decide (identity ∉ s.page.acknowledged)

def Page.dropPrompt (page : Page I) : Page I :=
  { page with nonce := page.nonce + 1, timer := false, pending := none }

/-- `_restore_transfer_transport`. -/
def State.restore (s : State I) : State I :=
  let restored := (s.values s.identity).restored
  let page := { s.page.dropPrompt with combo := restored }
  if restored = .p2p && s.warningRequired s.identity then
    s.setPage { page with accepted := .adb, pending := some (s.identity, page.nonce), timer := true }
  else s.setPage { page with accepted := restored }

/-- `_confirm_p2p_selection` up to the dialog. -/
def State.confirm (s : State I) (previous : Transport) (expected : I) (caller : Caller) : State I :=
  if s.page.dialogActive then s
  else { s.setPage { s.page with dialogActive := true } with
    dialogs := .security previous expected caller :: s.dialogs }

/-- The answer is no, or the dialog was closed. -/
def State.reject (s : State I) (previous : Transport) : State I :=
  (s.setValues { s.values s.identity with transport := previous.value }).setPage
    { s.page with combo := previous, accepted := previous }

def State.accept (s : State I) (expected : I) (doNotShowAgain : Bool) : State I :=
  (s.setValues ⟨P2P_TRANSPORT, (s.values s.identity).acknowledged || doNotShowAgain⟩).setPage
    { s.page with acknowledged := expected :: s.page.acknowledged, accepted := .p2p }

/-- `_confirm_p2p_selection` after the dialog. -/
def State.answered (s : State I) (previous : Transport) (expected : I)
    (accepted doNotShowAgain : Bool) : State I × Bool :=
  let s := s.setPage { s.page with dialogActive := false }
  if s.identity ≠ expected then (s.restore, false)
  else if !accepted then (s.reject previous, false)
  else (s.accept expected doNotShowAgain, true)

/-- `_transfer_transport_changed` by the user. -/
def State.select (s : State I) (selected : Transport) : State I :=
  let s := s.setPage { s.page.dropPrompt with combo := selected }
  if selected = .p2p && s.warningRequired s.identity then
    s.confirm s.page.accepted s.identity .selection
  else
    let s := s.setValues { s.values s.identity with transport := selected.value }
    s.setPage { s.page with accepted := selected }

/-- `_confirm_restored_p2p`. -/
def State.confirmRestored (s : State I) (expected : I) (nonce : Nat) : State I :=
  if nonce ≠ s.page.nonce then s
  else if s.identity ≠ expected then s.restore
  else if s.page.combo ≠ .p2p then s
  else if !s.warningRequired expected then s.setPage { s.page with accepted := .p2p }
  else s.confirm .adb expected .restored

/-- `_run_pending_p2p_security_prompt`. -/
def State.runPending (s : State I) : State I :=
  let t := s.setPage { s.page with timer := false, pending := none }
  match s.page.pending with
  | none => t
  | some (expected, nonce) => if s.page.dialogActive then t else t.confirmRestored expected nonce

/-- `_start_prepared_transfer`; the context must be current. -/
def State.startPrepared (s : State I) (plan : Plan I) (free : Bool) : State I :=
  if free && decide (plan.generation = s.generation) then
    { s.setPage { s.page with waiting := none } with started := plan :: s.started }
  else s

def State.startOrDefer (s : State I) (plan : Plan I) (w : Surroundings) : State I :=
  if !w.listing then s.startPrepared plan w.free
  else if s.page.waiting.isSome then s
  else s.setPage { s.page with waiting := some plan }

def State.build (s : State I) (generation : Nat) (w : Surroundings) : State I :=
  if w.valid then
    s.startOrDefer ⟨s.page.combo, generation, s.identity, !s.warningRequired s.identity⟩ w
  else s

/-- `push_paths` after the consent: `_warn_android_write` and the plan. -/
def State.afterConsent (s : State I) (generation : Nat) (w : Surroundings) : State I :=
  if w.writable then s.build generation w
  else { s with dialogs := .write generation :: s.dialogs }

/-- `push_paths` from `_ensure_p2p_security_consent` on. -/
def State.ensureConsent (s : State I) (generation : Nat) (w : Surroundings) : State I :=
  if s.page.combo ≠ .p2p then s.afterConsent generation w
  else if !s.warningRequired s.identity then s.afterConsent generation w
  else (s.setPage s.page.dropPrompt).confirm s.page.accepted s.identity (.push generation)

/-- What happens to the page. `settingsChanged` follows an activated profile and
every other change of the settings; `invalidated` says that the profile was reset
before. After `activationFailed` there is no context to capture. -/
inductive Action (I : Type)
  | select (selected : Transport)
  | push (apk : Bool) (w : Surroundings)
  | answer (accepted doNotShowAgain : Bool) (w : Surroundings)
  | resetUi
  | restore
  | settingsChanged (identity : I) (values : Values) (invalidated : Bool)
  | activationFailed (identity : I) (values : Values)
  | deviceChanged
  | timeout
  | listingEnded (free : Bool)
  | cancelWaiting

def step (s : State I) : Action I → Option (State I)
  | .select selected => if s.dialogs.isEmpty then some (s.select selected) else none
  | .push apk w =>
    if s.dialogs.isEmpty && s.synced then
      some (if apk then { s with dialogs := [.install s.generation] }
        else s.ensureConsent s.generation w)
    else none
  | .answer accepted doNotShowAgain w => match s.dialogs with
    | [] => none
    | .install generation :: rest =>
      let s := { s with dialogs := rest }
      some (if accepted then s.ensureConsent generation w else s)
    | .write generation :: rest =>
      let s := { s with dialogs := rest }
      some (if accepted then s.build generation w else s)
    | .security previous expected caller :: rest =>
      let (s, consent) := { s with dialogs := rest }.answered previous expected accepted doNotShowAgain
      some (match consent, caller with
        | true, .push generation => s.afterConsent generation w
        | _, _ => s)
  | .resetUi =>
    if s.dialogs.isEmpty then
      some (s.setValues { s.values s.identity with transport := ADB_TRANSPORT }).restore
    else none
  | .restore => some s.restore
  | .settingsChanged identity values invalidated =>
    if identity = s.identity && s.synced && !invalidated then some s.restore
    else some { s with
      identity := identity
      values := Function.update s.values identity values
      synced := true
      generation := s.generation + 1 }.restore
  | .activationFailed identity values =>
    some { s with
      identity := identity
      values := Function.update s.values identity values
      synced := false
      generation := s.generation + 1 }
  | .deviceChanged => some { s with generation := s.generation + 1 }
  | .timeout => if s.page.timer then some s.runPending else none
  | .listingEnded free => match s.page.waiting with
    | none => none
    | some plan => some ((s.setPage { s.page with waiting := none }).startPrepared plan free)
  | .cancelWaiting => some (s.setPage { s.page with waiting := none })

def State.new (identity : I) (values : I → Values) : State I :=
  State.restore ⟨identity, values, true, 0, ⟨.adb, .adb, [], 0, none, false, false, none⟩, [], []⟩

/-- The generation of the context that a dialog goes on with. -/
def Dialog.generation? : Dialog I → Option Nat
  | .install generation | .write generation | .security _ _ (.push generation) => some generation
  | .security _ _ _ => none

/-- The prompt for a restored transport, which falls back to ADB. -/
def Dialog.isPrompt : Dialog I → Prop
  | .security .adb _ .restored => True
  | _ => False

/-- A plan that can still be started has the consent it needs. -/
def Plan.Ok (s : State I) (plan : Plan I) : Prop :=
  plan.generation ≤ s.generation ∧
    (plan.generation = s.generation → plan.transport = .p2p → plan.consented = true)

/-- What holds between any two events. -/
structure Inv (s : State I) : Prop where
  captured : ∀ dialog ∈ s.dialogs, ∀ generation, dialog.generation? = some generation →
    generation ≤ s.generation ∧ (generation = s.generation → s.synced = true)
  above : ∀ upper lower, s.dialogs = upper ++ [lower] → ∀ dialog ∈ upper, dialog.isPrompt
  stored : s.synced = true → s.page.combo = .adb →
    (s.values s.identity).restored = .adb ∨ s.warningRequired s.identity = false
  asked : ∀ generation, .write generation ∈ s.dialogs → generation = s.generation →
    s.page.combo = .p2p → s.warningRequired s.identity = false
  waiting : ∀ plan, s.page.waiting = some plan → plan.Ok s
  started : ∀ plan ∈ s.started, plan.transport = .p2p → plan.consented = true

variable {s t : State I}

theorem restore_page : s.restore = s.setPage s.restore.page ∧
    s.restore.page.combo = (s.values s.identity).restored ∧
    s.restore.page.acknowledged = s.page.acknowledged ∧
    s.restore.page.waiting = s.page.waiting := by
  unfold State.restore
  dsimp only
  split
  · exact ⟨rfl, rfl, rfl, rfl⟩
  · exact ⟨rfl, rfl, rfl, rfl⟩

/-- Nothing that decides about a consent has changed. -/
structure Same (s t : State I) : Prop where
  identity : t.identity = s.identity
  values : t.values = s.values
  synced : t.synced = s.synced
  generation : t.generation = s.generation
  started : t.started = s.started
  acknowledged : t.page.acknowledged = s.page.acknowledged
  waiting : t.page.waiting = s.page.waiting

theorem Same.required (h : Same s t) : t.warningRequired t.identity = s.warningRequired s.identity := by
  unfold State.warningRequired
  rw [h.identity, h.values, h.acknowledged]

theorem restore_same : Same s s.restore := by
  obtain ⟨hpage, -, hacknowledged, hwaiting⟩ := restore_page (s := s)
  rw [hpage]
  exact ⟨rfl, rfl, rfl, rfl, rfl, hacknowledged, hwaiting⟩

theorem Inv.same (hinv : Inv s) (h : Same s t) (hdialogs : t.dialogs = s.dialogs)
    (hcombo : t.page.combo = s.page.combo ∨ t.page.combo = (s.values s.identity).restored) : Inv t where
  captured := by
    rw [hdialogs, h.generation, h.synced]
    exact hinv.captured
  above := by
    rw [hdialogs]
    exact hinv.above
  stored := by
    rw [h.required, h.identity, h.values, h.synced]
    intro hsynced hadb
    obtain hc | hc := hcombo
    · exact hinv.stored hsynced (by rwa [← hc])
    · exact .inl (by rwa [← hc])
  asked := by
    intro generation hmem hgeneration hp2p
    rw [h.required]
    rw [hdialogs] at hmem
    rw [h.generation] at hgeneration
    obtain hc | hc := hcombo
    · exact hinv.asked generation hmem hgeneration (by rwa [← hc])
    · cases hs : s.page.combo with
      | p2p => exact hinv.asked generation hmem hgeneration hs
      | adb =>
        -- The stored transport is ADB as well, unless there is consent.
        have hsynced := (hinv.captured _ hmem generation rfl).2 hgeneration
        obtain hadb | hrequired := hinv.stored hsynced hs
        · rw [← hc, hp2p] at hadb
          cases hadb
        · exact hrequired
  waiting := by
    rw [h.waiting]
    intro plan hplan
    unfold Plan.Ok
    rw [h.generation]
    exact hinv.waiting plan hplan
  started := by
    rw [h.started]
    exact hinv.started

theorem inv_restore (hinv : Inv s) : Inv s.restore := by
  obtain ⟨hpage, hcombo, -, -⟩ := restore_page (s := s)
  exact hinv.same restore_same (by rw [hpage]; rfl) (.inr hcombo)

theorem inv_open {dialog : Dialog I} (hinv : Inv s)
    (hcaptured : ∀ generation, dialog.generation? = some generation →
      generation ≤ s.generation ∧ (generation = s.generation → s.synced = true))
    (hbottom : s.dialogs = [] ∨ dialog.isPrompt)
    (hasked : ∀ generation, dialog = .write generation → generation = s.generation →
      s.page.combo = .p2p → s.warningRequired s.identity = false) :
    Inv { s with dialogs := dialog :: s.dialogs } where
  captured := List.forall_mem_cons.mpr ⟨hcaptured, hinv.captured⟩
  above := by
    intro upper lower hdialogs d hd
    obtain ⟨rfl, hlower⟩ | ⟨rest, rfl, hrest⟩ := List.append_eq_cons_iff.mp hdialogs.symm
    · cases hd
    · obtain rfl | hd := List.mem_cons.mp hd
      · refine hbottom.resolve_left ?_
        rw [hrest]
        simp
      · exact hinv.above rest lower hrest d hd
  stored := hinv.stored
  asked := by
    intro generation hmem
    obtain heq | hmem := List.mem_cons.mp hmem
    · exact hasked generation heq.symm
    · exact hinv.asked generation hmem
  waiting := hinv.waiting
  started := hinv.started

theorem inv_close {dialog : Dialog I} {rest : List (Dialog I)} (hinv : Inv s)
    (hdialogs : s.dialogs = dialog :: rest) : Inv { s with dialogs := rest } where
  captured d hd := hinv.captured d (by rw [hdialogs]; exact List.mem_cons_of_mem _ hd)
  above := by
    intro upper lower hrest d hd
    refine hinv.above (dialog :: upper) lower ?_ d (List.mem_cons_of_mem _ hd)
    rw [hdialogs, List.cons_append]
    exact congrArg _ hrest
  stored := hinv.stored
  asked generation hmem := hinv.asked generation (by rw [hdialogs]; exact List.mem_cons_of_mem _ hmem)
  waiting := hinv.waiting
  started := hinv.started

/-- Above another dialog there are prompts only. -/
theorem bottom_or_prompt {dialog : Dialog I} {rest : List (Dialog I)} (hinv : Inv s)
    (hdialogs : s.dialogs = dialog :: rest) : rest = [] ∨ dialog.isPrompt := by
  obtain rfl | ⟨upper, lower, rfl⟩ := List.eq_nil_or_concat rest
  · exact .inl rfl
  · exact .inr (hinv.above (dialog :: upper) lower (by rw [hdialogs]; simp) dialog (by simp))

theorem inv_page {page : Page I} (hinv : Inv s) (hcombo : page.combo = s.page.combo)
    (hacknowledged : page.acknowledged = s.page.acknowledged)
    (hwaiting : page.waiting = s.page.waiting) : Inv (s.setPage page) :=
  hinv.same ⟨rfl, rfl, rfl, rfl, rfl, hacknowledged, hwaiting⟩ rfl (.inl hcombo)

theorem inv_confirm {previous : Transport} {expected : I} {caller : Caller} (hinv : Inv s)
    (hcaller : ∀ generation, caller = .push generation →
      generation ≤ s.generation ∧ (generation = s.generation → s.synced = true))
    (hbottom : s.dialogs = [] ∨ (Dialog.security previous expected caller).isPrompt) :
    Inv (s.confirm previous expected caller) := by
  unfold State.confirm
  split
  · exact hinv
  · have hpage : Inv (s.setPage { s.page with dialogActive := true }) := inv_page hinv rfl rfl rfl
    refine inv_open hpage ?_ hbottom (by simp)
    intro generation hgeneration
    cases caller with
    | push g =>
      cases hgeneration
      exact hcaller _ rfl
    | selection | restored => cases hgeneration

theorem inv_empty (hdialogs : s.dialogs = [])
    (hstored : s.page.combo = .adb → (s.values s.identity).restored = .adb)
    (hwaiting : ∀ plan, s.page.waiting = some plan → plan.Ok s)
    (hstarted : ∀ plan ∈ s.started, plan.transport = .p2p → plan.consented = true) : Inv s where
  captured := by simp [hdialogs]
  above := by simp [hdialogs]
  stored _ hadb := .inl (hstored hadb)
  asked := by simp [hdialogs]
  waiting := hwaiting
  started := hstarted

/-- A new generation makes every context that has been captured stale. -/
theorem inv_advance (hinv : Inv s) (hgeneration : t.generation = s.generation + 1)
    (hdialogs : t.dialogs = s.dialogs) (hwaiting : t.page.waiting = s.page.waiting)
    (hstarted : t.started = s.started)
    (hstored : t.synced = true → t.page.combo = .adb →
      (t.values t.identity).restored = .adb ∨ t.warningRequired t.identity = false) : Inv t where
  captured := by
    rw [hdialogs, hgeneration]
    intro dialog hmem generation hcaptured
    have hle := (hinv.captured dialog hmem generation hcaptured).1
    exact ⟨Nat.le_succ_of_le hle, fun heq => by omega⟩
  above := by
    rw [hdialogs]
    exact hinv.above
  stored := hstored
  asked := by
    rw [hdialogs, hgeneration]
    intro generation hmem heq
    have hle := (hinv.captured _ hmem generation rfl).1
    omega
  waiting := by
    rw [hwaiting]
    intro plan hplan
    have hle := (hinv.waiting plan hplan).1
    unfold Plan.Ok
    rw [hgeneration]
    exact ⟨Nat.le_succ_of_le hle, fun heq => by omega⟩
  started := by
    rw [hstarted]
    exact hinv.started

theorem inv_startPrepared {plan : Plan I} (hinv : Inv s) (hplan : plan.Ok s) (free : Bool) :
    Inv (s.startPrepared plan free) := by
  unfold State.startPrepared
  split
  · rename_i hfree
    rw [Bool.and_eq_true, decide_eq_true_eq] at hfree
    exact ⟨hinv.captured, hinv.above, hinv.stored, hinv.asked, by simp [State.setPage],
      List.forall_mem_cons.mpr ⟨hplan.2 hfree.2, hinv.started⟩⟩
  · exact hinv

theorem inv_build {generation : Nat} (hinv : Inv s) (hle : generation ≤ s.generation)
    (hasked : generation = s.generation → s.page.combo = .p2p → s.warningRequired s.identity = false)
    (w : Surroundings) : Inv (s.build generation w) := by
  unfold State.build
  split
  · have hplan : Plan.Ok s ⟨s.page.combo, generation, s.identity, !s.warningRequired s.identity⟩ :=
      ⟨hle, fun heq hp2p => by simp [hasked heq hp2p]⟩
    unfold State.startOrDefer
    split
    · exact inv_startPrepared hinv hplan w.free
    · split
      · exact hinv
      · exact ⟨hinv.captured, hinv.above, hinv.stored, hinv.asked,
          fun plan hwaiting => Option.some.inj hwaiting ▸ hplan, hinv.started⟩
  · exact hinv

theorem inv_afterConsent {generation : Nat} (hinv : Inv s) (hdialogs : s.dialogs = [])
    (hcaptured : generation ≤ s.generation ∧ (generation = s.generation → s.synced = true))
    (hconsent : s.page.combo = .p2p → s.warningRequired s.identity = false) (w : Surroundings) :
    Inv (s.afterConsent generation w) := by
  unfold State.afterConsent
  split
  · exact inv_build hinv hcaptured.1 (fun _ => hconsent) w
  · refine inv_open hinv ?_ (.inl hdialogs) ?_
    · intro g hg
      cases hg
      exact hcaptured
    · intro g hg _
      exact hconsent

theorem inv_ensureConsent {generation : Nat} (hinv : Inv s) (hdialogs : s.dialogs = [])
    (hcaptured : generation ≤ s.generation ∧ (generation = s.generation → s.synced = true))
    (w : Surroundings) : Inv (s.ensureConsent generation w) := by
  unfold State.ensureConsent
  split
  · rename_i hadb
    exact inv_afterConsent hinv hdialogs hcaptured (fun hp2p => absurd hp2p hadb) w
  · split
    · rename_i hrequired
      exact inv_afterConsent hinv hdialogs hcaptured (fun _ => by simpa using hrequired) w
    · refine inv_confirm (inv_page hinv rfl rfl rfl) ?_ (.inl hdialogs)
      intro g hg
      cases hg
      exact hcaptured

theorem restored_value (transport : Transport) (acknowledged : Bool) :
    (Values.mk transport.value acknowledged).restored = transport := by
  have hne : ADB_TRANSPORT ≠ P2P_TRANSPORT := by decide
  cases transport with
  | adb => exact if_neg hne
  | p2p => exact if_pos rfl

theorem setValues_self (values : Values) : (s.setValues values).values s.identity = values := by
  simp [State.setValues]

/-- Above another dialog only a prompt is rejected, which falls back to ADB. -/
theorem inv_reject {previous : Transport} (hinv : Inv s) (hbottom : s.dialogs = [] ∨ previous = .adb) :
    Inv (s.reject previous) where
  captured := hinv.captured
  above := hinv.above
  stored _ hadb := by
    left
    have hvalue : (s.reject previous).values s.identity =
        ⟨previous.value, (s.values s.identity).acknowledged⟩ := setValues_self _
    have hprevious : previous = .adb := hadb
    rw [show (s.reject previous).identity = s.identity from rfl, hvalue, restored_value, hprevious]
  asked generation hmem _ hp2p := by
    have hprevious : previous = .p2p := hp2p
    obtain hempty | hadb := hbottom
    · rw [show (s.reject previous).dialogs = s.dialogs from rfl, hempty] at hmem
      cases hmem
    · rw [hprevious] at hadb
      cases hadb
  waiting := hinv.waiting
  started := hinv.started

theorem accept_required {expected : I} {doNotShowAgain : Bool} (hidentity : s.identity = expected) :
    (s.accept expected doNotShowAgain).warningRequired (s.accept expected doNotShowAgain).identity =
      false := by
  simp [State.warningRequired, State.accept, State.setPage, State.setValues, hidentity]

theorem inv_accept {expected : I} {doNotShowAgain : Bool} (hinv : Inv s)
    (hidentity : s.identity = expected) : Inv (s.accept expected doNotShowAgain) where
  captured := hinv.captured
  above := hinv.above
  stored _ _ := .inr (accept_required hidentity)
  asked _ _ _ _ := accept_required hidentity
  waiting := hinv.waiting
  started := hinv.started

theorem inv_answered {previous : Transport} {expected : I} {accepted doNotShowAgain : Bool}
    (hinv : Inv s) (hbottom : s.dialogs = [] ∨ previous = .adb) :
    Inv (s.answered previous expected accepted doNotShowAgain).1 := by
  have hpage : Inv (s.setPage { s.page with dialogActive := false }) := inv_page hinv rfl rfl rfl
  unfold State.answered
  dsimp only
  split
  · exact inv_restore hpage
  · rename_i hexpected
    rw [not_not] at hexpected
    split
    · exact inv_reject hpage hbottom
    · exact inv_accept hpage hexpected

/-- The answer that goes on with a push. -/
theorem answered_consent {previous : Transport} {expected : I} {accepted doNotShowAgain : Bool}
    (h : (s.answered previous expected accepted doNotShowAgain).2 = true) :
    (s.answered previous expected accepted doNotShowAgain).1.warningRequired
      (s.answered previous expected accepted doNotShowAgain).1.identity = false := by
  unfold State.answered at h ⊢
  dsimp only at h ⊢
  split at h
  · cases h
  · rename_i hexpected
    rw [not_not] at hexpected
    split at h
    · cases h
    · rename_i haccepted
      rw [if_neg (not_not.mpr hexpected), if_neg haccepted]
      exact accept_required hexpected

theorem answered_fields (previous : Transport) (expected : I) (accepted doNotShowAgain : Bool) :
    (s.answered previous expected accepted doNotShowAgain).1.dialogs = s.dialogs ∧
    (s.answered previous expected accepted doNotShowAgain).1.generation = s.generation ∧
    (s.answered previous expected accepted doNotShowAgain).1.synced = s.synced ∧
    ∀ identity, identity ≠ expected →
      (s.answered previous expected accepted doNotShowAgain).1.values identity = s.values identity := by
  unfold State.answered
  dsimp only
  split
  · rw [restore_page.1]
    exact ⟨rfl, rfl, rfl, fun _ _ => rfl⟩
  · rename_i hexpected
    rw [not_not] at hexpected
    have hother : ∀ values identity, identity ≠ expected →
        Function.update s.values s.identity values identity = s.values identity :=
      fun values identity hne => Function.update_of_ne (fun h => hne (h.trans hexpected)) _ _
    split <;> exact ⟨rfl, rfl, rfl, hother _⟩

theorem inv_select {selected : Transport} (hinv : Inv s) (hdialogs : s.dialogs = []) :
    Inv (s.select selected) := by
  unfold State.select
  dsimp only
  split
  · rename_i hselected
    rw [Bool.and_eq_true, decide_eq_true_eq] at hselected
    refine inv_confirm (inv_empty hdialogs ?_ hinv.waiting hinv.started) (by simp) (.inl hdialogs)
    intro hadb
    have hp2p : selected = .adb := hadb
    rw [hselected.1] at hp2p
    cases hp2p
  · refine inv_empty hdialogs ?_ hinv.waiting hinv.started
    intro hadb
    have hselected : selected = .adb := hadb
    have hvalue := setValues_self (s := s) ⟨selected.value, (s.values s.identity).acknowledged⟩
    have hrestored : (Values.mk selected.value (s.values s.identity).acknowledged).restored = selected :=
      restored_value _ _
    rw [← hvalue] at hrestored
    exact hrestored.trans hselected

theorem inv_confirmRestored {expected : I} {nonce : Nat} (hinv : Inv s) :
    Inv (s.confirmRestored expected nonce) := by
  unfold State.confirmRestored
  split
  · exact hinv
  · split
    · exact inv_restore hinv
    · split
      · exact hinv
      · split
        · exact inv_page hinv rfl rfl rfl
        · exact inv_confirm hinv (by simp) (.inr trivial)

theorem inv_runPending (hinv : Inv s) : Inv s.runPending := by
  have hpage : Inv (s.setPage { s.page with timer := false, pending := none }) := inv_page hinv rfl rfl rfl
  unfold State.runPending
  dsimp only
  split
  · exact hpage
  · split
    · exact hpage
    · exact inv_confirmRestored hpage

theorem inv_idle (hinv : Inv s) : Inv (s.setPage { s.page with waiting := none }) :=
  ⟨hinv.captured, hinv.above, hinv.stored, hinv.asked, by simp [State.setPage], hinv.started⟩

/-- The page as it is built. -/
theorem inv_first (hdialogs : s.dialogs = []) (hwaiting : s.page.waiting = none) (hstarted : s.started = []) :
    Inv s.restore := by
  obtain ⟨hpage, hcombo, -, hkeep⟩ := restore_page (s := s)
  refine inv_empty ?_ ?_ ?_ ?_
  · rw [hpage]
    exact hdialogs
  · rw [hpage]
    exact fun hadb => hcombo.symm.trans hadb
  · rw [hkeep, hwaiting]
    simp
  · rw [hpage]
    simp [State.setPage, hstarted]

theorem inv_new (identity : I) (values : I → Values) : Inv (State.new identity values) :=
  inv_first rfl rfl rfl

/-- Every event keeps the invariant. -/
theorem inv_next {action : Action I} (hinv : Inv s) (h : step s action = some t) : Inv t := by
  cases action with
  | select selected =>
    simp only [step] at h
    split at h <;> cases h
    rename_i hdialogs
    exact inv_select hinv (List.isEmpty_iff.mp hdialogs)
  | push apk w =>
    simp only [step] at h
    split at h <;> cases h
    rename_i hready
    rw [Bool.and_eq_true, List.isEmpty_iff] at hready
    obtain ⟨hdialogs, hsynced⟩ := hready
    split
    · have hopen : Inv { s with dialogs := .install s.generation :: s.dialogs } := by
        refine inv_open hinv ?_ (.inl hdialogs) (by simp)
        intro generation hgeneration
        cases hgeneration
        exact ⟨Nat.le_refl _, fun _ => hsynced⟩
      rwa [hdialogs] at hopen
    · exact inv_ensureConsent hinv hdialogs ⟨Nat.le_refl _, fun _ => hsynced⟩ w
  | answer accepted doNotShowAgain w =>
    simp only [step] at h
    split at h
    · cases h
    · rename_i generation rest hdialogs
      cases h
      have hclosed := inv_close hinv hdialogs
      have hcaptured := hinv.captured (.install generation) (by rw [hdialogs]; simp) generation rfl
      have hempty : rest = [] := (bottom_or_prompt hinv hdialogs).resolve_right (by simp [Dialog.isPrompt])
      split
      · exact inv_ensureConsent hclosed hempty hcaptured w
      · exact hclosed
    · rename_i generation rest hdialogs
      cases h
      have hclosed := inv_close hinv hdialogs
      have hcaptured := hinv.captured (.write generation) (by rw [hdialogs]; simp) generation rfl
      split
      · exact inv_build hclosed hcaptured.1 (hinv.asked generation (by rw [hdialogs]; simp)) w
      · exact hclosed
    · rename_i previous expected caller rest hdialogs
      cases h
      have hclosed := inv_close hinv hdialogs
      have hbottom : rest = [] ∨ previous = .adb := by
        refine (bottom_or_prompt hinv hdialogs).imp_right ?_
        intro hprompt
        cases previous with
        | adb => rfl
        | p2p => cases hprompt
      have hanswered : Inv (State.answered { s with dialogs := rest } previous expected accepted
          doNotShowAgain).1 := inv_answered hclosed hbottom
      obtain ⟨hsame, hgeneration, hsynced, -⟩ := answered_fields (s := { s with dialogs := rest })
        previous expected accepted doNotShowAgain
      split
      · rename_i generation hconsent
        have hcaptured := hinv.captured (.security previous expected (.push generation))
          (by rw [hdialogs]; simp) generation rfl
        have hempty : rest = [] :=
          (bottom_or_prompt hinv hdialogs).resolve_right (by cases previous <;> simp [Dialog.isPrompt])
        refine inv_afterConsent hanswered (hsame.trans hempty) ?_ (fun _ => answered_consent hconsent) w
        rw [hgeneration, hsynced]
        exact hcaptured
      · exact hanswered
  | resetUi =>
    simp only [step] at h
    split at h <;> cases h
    rename_i hdialogs
    refine inv_restore (inv_empty (List.isEmpty_iff.mp hdialogs) ?_ hinv.waiting hinv.started)
    intro _
    have hvalue := setValues_self (s := s) ⟨Transport.adb.value, (s.values s.identity).acknowledged⟩
    have hrestored := restored_value .adb (s.values s.identity).acknowledged
    rw [← hvalue] at hrestored
    exact hrestored
  | restore =>
    cases h
    exact inv_restore hinv
  | settingsChanged identity values invalidated =>
    simp only [step] at h
    split at h <;> cases h
    · exact inv_restore hinv
    · obtain ⟨hpage, hcombo, -, hwaiting⟩ := restore_page (s := { s with
        identity := identity
        values := Function.update s.values identity values
        synced := true
        generation := s.generation + 1 })
      rw [hpage]
      refine inv_advance hinv rfl rfl hwaiting rfl (fun _ hadb => .inl ?_)
      exact hcombo.symm.trans hadb
  | activationFailed identity values =>
    cases h
    exact inv_advance hinv rfl rfl rfl rfl (by simp)
  | deviceChanged =>
    cases h
    exact inv_advance hinv rfl rfl rfl rfl hinv.stored
  | timeout =>
    simp only [step] at h
    split at h <;> cases h
    exact inv_runPending hinv
  | listingEnded free =>
    simp only [step] at h
    split at h
    · cases h
    · rename_i plan hplan
      cases h
      exact inv_startPrepared (inv_idle hinv) (hinv.waiting plan hplan) free
  | cancelWaiting =>
    cases h
    exact inv_idle hinv

theorem build_values (generation : Nat) (w : Surroundings) : (s.build generation w).values = s.values := by
  unfold State.build State.startOrDefer State.startPrepared
  split_ifs <;> rfl

theorem afterConsent_values (generation : Nat) (w : Surroundings) :
    (s.afterConsent generation w).values = s.values := by
  unfold State.afterConsent
  split
  · exact build_values generation w
  · rfl

/-- The warning is accepted over a page that has been reloaded, and an upload
follows over the warning about the path. -/
def acceptedRun : List (Action Nat) :=
  [.select .p2p, .restore, .deviceChanged, .answer true true ⟨true, true, false, true⟩, .select .p2p,
    .push false ⟨false, true, false, true⟩, .restore, .answer true false ⟨true, true, false, true⟩]

end OpenAdb.Files.UploadConsent
