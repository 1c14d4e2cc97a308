import OpenAdb.Privilege.Calls

namespace OpenAdb.Privilege.Facades

open OpenAdb.Context.Device OpenAdb.Context.Device.DeviceManager OpenAdb.Lib.PyText OpenAdb.Lib.Runs
  OpenAdb.Lib.Threads OpenAdb.Lib.Threads.Program OpenAdb.Privilege.Manager
  OpenAdb.Privilege.Discipline OpenAdb.Privilege.Calls
open OpenAdb.Settings.Values (Backend)

variable {τ δ π : Type} {u : UnicodeData} {facade : Facade π} {expected : Backend} {executor : Executor}
  {R : PrivilegeManager δ π → Prop} {settled selected current : Now δ π}

variable [DecidableEq π]

/-- What the check of the selected mode saw. -/
structure Selected (u : UnicodeData) (facade : Facade π) (selected : Now δ π) : Prop where
  ordered : Ordered selected
  captured : facade.backendCancelEvent ≤ selected.event
  backend : selected.selectedBackend u = facade.backend
  seen : ∃ n, Later n selected ∧ n.device.isContextCurrent u facade.deviceContext = true

/-- The facts that a check of the selected mode and of the context leave. -/
structure Passed (u : UnicodeData) (facade : Facade π) (R : PrivilegeManager δ π → Prop)
    (selected current : Now δ π) (s : PrivilegeManager δ π) : Prop where
  from_ : ∃ s₀, R s₀ ∧ s₀.now = selected
  checked : Checked u facade selected current
  later : Later current s.now
  still : R s

theorem passed_stable (facade : Facade π) (selected current : Now δ π) (hR : Stable (discipline δ π u) R) :
    Stable (discipline δ π u) (Passed u facade R selected current) := fun s t hmoves h =>
  ⟨h.from_, h.checked, h.later.trans hmoves.now, hR s t hmoves h.still⟩

theorem requireSelectedBackend_keeps (hR : Stable (discipline δ π u) R)
    (hprepared : ∀ s, R s → Prepared u s facade) (hexpected : facade.backend = expected) :
    Keeps (discipline δ π u)
      (fun selected t => ((∃ s, R s ∧ s.now = selected) ∧ Selected u facade selected ∧ Later selected t.now) ∧ R t)
      (fun _ => R) (requireSelectedBackend u expected) R := by
  apply Keeps.reads hR
  intro _ s _ hs hRs hbackend t ht hRt
  split_ifs at hbackend with hselected
  cases hbackend
  obtain ⟨hlease, _, hseen⟩ := hprepared s hRs
  refine ⟨⟨⟨s, hRs, rfl⟩, ⟨hs.ordered, hs.leases _ hlease, ?_, hseen⟩, ht.now⟩, hRt⟩
  rw [of_decide_eq_true hselected, hexpected]

theorem requireContextCurrent_keeps (hR : Stable (discipline δ π u) R) : Keeps (discipline δ π u)
    (fun current => Passed u facade R selected current) (fun _ => R)
    (requireContextCurrent u facade.deviceContext)
    (fun s => ((∃ s₀, R s₀ ∧ s₀.now = selected) ∧ Selected u facade selected ∧ Later selected s.now) ∧ R s) := by
  apply Keeps.locked
  · exact fun _ s hs _ => ⟨hs, (discipline δ π u).refl s⟩
  · intro _ s _ ⟨⟨hfrom, hselected, hlater⟩, hRs⟩ t _ ht
    by_cases hcurrent : s.now.device.isContextCurrent u facade.deviceContext = true
    · rw [if_pos hcurrent]
      obtain ⟨hordered, hcaptured, hbackend, n, hn, hseen⟩ := hselected
      refine ⟨hfrom, ⟨hordered, hcaptured, hbackend, hlater, ?_, hcurrent⟩, ht.now, hR s t ht hRs⟩
      exact current_between hn hlater hseen hcurrent
    · rw [if_neg hcurrent]
      exact hR s t ht hRs

/-- The two checks, and what the rest may use of them. -/
theorem checks_keep {β : Type} {k : Now δ π → Now δ π → Prog δ π β} {Q : β → PrivilegeManager δ π → Prop}
    (hR : Stable (discipline δ π u) R) (hprepared : ∀ s, R s → Prepared u s facade)
    (hexpected : facade.backend = expected) (hk : ∀ selected current,
      Keeps (discipline δ π u) Q (fun _ => R) (k selected current) (Passed u facade R selected current)) :
    Keeps (discipline δ π u) Q (fun _ => R) (do
      let selected ← requireSelectedBackend u expected
      let current ← requireContextCurrent u facade.deviceContext
      k selected current) R := by
  apply (requireSelectedBackend_keeps hR hprepared hexpected).bind
  intro selected
  apply (requireContextCurrent_keeps hR).bind
  exact fun current => hk selected current

theorem raiseIfLinkedCancelled_keeps {P : PrivilegeManager δ π → Prop} (hP : Stable (discipline δ π u) P)
    (event : Nat) : Keeps (discipline δ π u) (fun _ t => (∃ s, P s ∧ event ∉ s.now.finished) ∧ P t) (fun _ => P)
      (raiseIfLinkedCancelled event) P := by
  apply Keeps.reads hP
  intro i s _ _ hPs hunset t _ ht
  split_ifs at hunset with hcondition
  have hlinked : linkedIsSet event i s.now = false := by simpa using hcondition
  exact ⟨⟨s, hPs, of_decide_eq_false (Bool.or_eq_false_iff.mp hlinked).1⟩, ht⟩

theorem raiseIfCancelled_keeps {P : PrivilegeManager δ π → Prop} (hP : Stable (discipline δ π u) P)
    (event : Nat) : Keeps (discipline δ π u)
      (fun settled t => (event ∉ settled.finished ∧ Later settled t.now) ∧ P t) (fun _ => P)
      (raiseIfCancelled event) P := by
  apply Keeps.reads hP
  intro _ s _ _ _ hunset t ht hPt
  split_ifs at hunset with hcondition
  cases hunset
  exact ⟨⟨of_decide_eq_true hcondition, ht.now⟩, hPt⟩

theorem handOver_stays (hexpected : facade.backend = expected) (executor : Executor) :
    Stays (discipline δ π u) (fun s => Prepared u s facade) (handOver u facade expected executor) := by
  have hP := prepared_stable (δ := δ) (u := u) facade
  apply (examine_stays hP _ _).bind
  intro _
  apply checks_keep hP (fun _ => id) hexpected
  intro selected current
  have hpassed := passed_stable facade selected current hP
  apply ((raiseIfLinkedCancelled_keeps hpassed facade.backendCancelEvent).mono (fun _ _ => id) (fun _ _ => id)
    (fun _ _ h => h.still)).bind
  intro _
  apply Keeps.of_fact
  intro ⟨s₀, hs₀, hunset⟩
  have hsound : Checked u facade selected current ∧ facade.backendCancelEvent ∉ selected.finished :=
    ⟨hs₀.checked, (hs₀.checked.later.trans hs₀.later).unset hunset⟩
  exact (record_stays (e := .handed facade executor selected current) hpassed (fun _ _ => hsound)).mono
    (fun _ _ => id) (fun _ _ h => h.still) (fun _ _ h => h.still)

/-- What is known after the check of the event that follows a command. -/
def Settled (u : UnicodeData) (facade : Facade π) (settled : Now δ π) (s : PrivilegeManager δ π) : Prop :=
  (facade.backendCancelEvent ∉ settled.finished ∧ Later settled s.now) ∧ Prepared u s facade

theorem settled_stable (facade : Facade π) (settled : Now δ π) :
    Stable (discipline δ π u) (Settled u facade settled) :=
  ((fact_stable _).and (later_stable settled)).and (prepared_stable facade)

theorem returned_stays (executor : Executor) : Stays (discipline δ π u)
    (Passed u facade (Settled u facade settled) selected current)
    (record (.returned facade executor settled selected current)) := by
  apply record_stays (passed_stable facade selected current (settled_stable facade settled))
  intro s h
  obtain ⟨s₀, hs₀, rfl⟩ := h.from_
  exact ⟨h.checked, hs₀.1.1, hs₀.1.2⟩

theorem giveBack_runs (hexpected : facade.backend = expected) (executor : Executor) (settled : Now δ π) :
    Runs (discipline δ π u) (Settled u facade settled) (giveBack u facade expected executor settled) := by
  apply Keeps.runs
  apply checks_keep (settled_stable facade settled) (fun _ => And.right) hexpected
  intro selected current
  exact (returned_stays executor).mono (fun _ _ => id) (fun _ _ h => h.still) (fun _ _ h => h.still)

/-- The body of the root facade and of the raw methods. -/
theorem call_runs (hexpected : facade.backend = expected) (executor : Executor) :
    Runs (discipline δ π u) (fun s => Prepared u s facade) (do
      handOver u facade expected executor
      consult (fun _ => ())
      let settled ← raiseIfCancelled facade.backendCancelEvent
      giveBack u facade expected executor settled) := by
  have hP := prepared_stable (δ := δ) (u := u) facade
  apply Runs.bind (handOver_stays hexpected executor)
  intro _
  apply Runs.bind (consult_stays hP _)
  intro _
  apply Runs.bind (raiseIfCancelled_keeps hP facade.backendCancelEvent)
  intro settled
  exact giveBack_runs hexpected executor settled

theorem prepareLogicalResult_stays {P : PrivilegeManager δ π → Prop} (hP : Stable (discipline δ π u) P) :
    Stays (discipline δ π u) P (prepareLogicalResult u facade) := by
  apply (Stays.ask hP).bind
  intro r
  have hreset : Stays (discipline δ π u) P (resetOnErrorType u facade r.1) := by
    apply Stays.ite
    · intro _
      apply (resetIfLeaseCurrent_stays hP _).bind
      exact fun _ => Stays.pure
    · exact fun _ => Stays.pure
  apply hreset.bind
  exact fun _ => Stays.ite (fun _ => Stays.pure) (fun _ => Stays.pure)

theorem shizukuRunShell_runs (hexpected : facade.backend = .shizuku) :
    Runs (discipline δ π u) (fun s => Prepared u s facade) (shizukuRunShell u facade) := by
  have hP := prepared_stable (δ := δ) (u := u) facade
  apply Runs.bind (handOver_stays hexpected facade.shell)
  intro _
  have hexecuted : Stays (discipline δ π u) (fun s => Prepared u s facade)
      ((consult (fun _ => ()) : Prog δ π Unit).handle (fun e => do
        let _ ← resetBackendIfCurrent u facade
        .raise e)) := by
    apply (consult_stays hP _).handle
    intro e
    apply (resetIfLeaseCurrent_stays hP _).bind
    exact fun _ => Stays.raise
  apply Runs.bind hexecuted
  intro _
  apply Runs.bind (raiseIfCancelled_keeps hP facade.backendCancelEvent)
  intro settled
  have hsettled := settled_stable (δ := δ) (u := u) facade settled
  apply Runs.bind (prepareLogicalResult_stays hsettled)
  intro errorType
  apply Runs.bind (consult_stays hsettled _)
  intro _
  apply Keeps.runs
  apply checks_keep hsettled (fun _ => And.right) hexpected
  intro selected current
  have hdone : Stays (discipline δ π u) (Passed u facade (Settled u facade settled) selected current)
      (if errorType.infrastructure = true then .raise .external
      else record (.returned facade facade.shell settled selected current)) :=
    Stays.ite (fun _ => Stays.raise) (fun _ => returned_stays facade.shell)
  exact hdone.mono (fun _ _ => id) (fun _ _ h => h.still) (fun _ _ h => h.still)

theorem runShell_runs (hbackend : facade.backend ≠ .standard) :
    Runs (discipline δ π u) (fun s => Prepared u s facade) (runShell u facade) := by
  rw [runShell]
  cases hexpected : facade.backend with
  | standard => exact absurd hexpected hbackend
  | root => exact call_runs hexpected facade.shell
  | shizuku => exact shizukuRunShell_runs hexpected

theorem discardResult_runs {α : Type} {P : PrivilegeManager δ π → Prop} {x : Prog δ π α}
    (hx : Runs (discipline δ π u) P x) : Runs (discipline δ π u) P (discardResult x) := by
  apply Runs.bind hx
  exact fun _ => Keeps.pure (fun _ _ _ => trivial)

/-- Every call keeps the discipline from where it is allowed. -/
theorem start_runs (request : Request π) (s : PrivilegeManager δ π) (p : Prog δ π Unit) (hs : Inv u s)
    (hstart : start u request s = some p) : Runs (discipline δ π u) (Moves s) p := by
  rw [start] at hstart
  split_ifs at hstart with hallowed
  cases hstart
  have hnow : Stable (discipline δ π u) (Moves s) := fun _ _ hmoves h => (discipline δ π u).trans _ _ _ h hmoves
  have hgiven (given : Option PrivilegeOperationLease) (hmem : given.all (fun lease => lease ∈ s.leases) = true)
      (lease : PrivilegeOperationLease) (hlease : given = some lease) (t : PrivilegeManager δ π) (ht : Moves s t) :
      Captured lease t := by
    subst hlease
    exact ht.leases.subset (of_decide_eq_true hmem)
  have hprepared (facade : Facade π) (hmem : facade ∈ s.facades) (t : PrivilegeManager δ π) (_ : Inv u t)
      (ht : Moves s t) : Prepared u t facade := (hs.facades facade hmem).moves ht
  cases request with
  | captureOperationLease => exact discardResult_runs (captureOperationLease_keeps hnow).runs
  | reset => exact (reset_stays hnow).runs
  | resetIfLeaseCurrent lease => exact discardResult_runs (resetIfLeaseCurrent_stays hnow lease).runs
  | linkedCancellationEvent lease =>
    apply discardResult_runs
    apply Runs.bind (requireOperationLease_stays hnow lease)
    exact fun _ => Stays.pure.runs
  | cachedStatus => exact discardResult_runs (cachedStatus_stays hnow).runs
  | check context backend lease =>
    exact discardResult_runs (check_runs hnow context backend lease (hgiven lease hallowed))
  | requestShizuku context lease =>
    exact discardResult_runs (requestState_runs hnow context lease (hgiven lease hallowed))
  | requestAndCheckShizuku context lease =>
    exact discardResult_runs (requestState_runs hnow context lease (hgiven lease hallowed))
  | prepareAdb context lease =>
    exact discardResult_runs (prepareAdb_runs hnow context lease (hgiven lease hallowed))
  | runShell facade =>
    have hmem := of_decide_eq_true hallowed
    exact (runShell_runs (hs.facades facade hmem).backend).mono (hprepared facade hmem)
  | delegatePreparedRaw facade method =>
    exact (call_runs rfl (.raw method)).mono (hprepared facade (of_decide_eq_true hallowed))

variable [DecidableEq τ] [DecidableEq δ]

/-- Every reachable state keeps the invariant. -/
theorem exec_inv {setting : Option PyObject} {device : DeviceManager δ π}
    {as : List (Action τ Answer (Request π) (Change δ π))} {t : Pool τ (PrivilegeManager δ π) Answer Raised}
    (hrun : exec (step (start u) (environment u)) (idle (Manager.init setting device)) as = some t) :
    Inv u t.shared := by
  have hidle : Kept (discipline δ π u) (idle (τ := τ) (Manager.init setting device)) :=
    ⟨init_inv setting device, fun _ => Stays.pure.runs⟩
  exact (exec_kept start_runs (fun _ _ _ => environment_keeps) hidle hrun).1.inv

/-- A command is handed over and a result is returned only in the access mode that the facade was prepared
under, and a reset for a lease ends nothing but the access mode of that lease. -/
def Upheld (u : UnicodeData) : Entry δ π → Prop
  | .handed facade _ selected current | .returned facade _ _ selected current => InForce u facade selected ∧
    Later selected current ∧ current.device.isContextCurrent u facade.deviceContext = true
  | .reset lease replaced cleared seen => replaced = lease.cancelEvent ∧ seen.event = lease.cancelEvent ∧
    seen.selectedBackend u = lease.backend ∧ ∀ verified, cleared = some verified → verified = lease.cancelEvent
  | .reported .. => True

/-- No reset ends the access mode between the check of the event after the command and the check of the
selected mode. -/
def Undisturbed : Entry δ π → Prop
  | .returned facade _ settled selected _ =>
    ¬(facade.backendCancelEvent ∉ settled.finished ∧ facade.backendCancelEvent ∈ selected.finished)
  | _ => True

/-- In every run each command, result and reset is as it should be, but for a result whose last checks
a reset falls between. -/
theorem facades_upheld {setting : Option PyObject} {device : DeviceManager δ π}
    {as : List (Action τ Answer (Request π) (Change δ π))} {t : Pool τ (PrivilegeManager δ π) Answer Raised}
    (hrun : exec (step (start u) (environment u)) (idle (Manager.init setting device)) as = some t) :
    ∀ e ∈ t.shared.log, Upheld u e ↔ Undisturbed e := by
  intro e he
  have hsound := (exec_inv hrun).log e he
  cases e with
  | handed facade executor selected current =>
    obtain ⟨hchecked, hunset⟩ := hsound
    exact ⟨fun _ => trivial, fun _ => ⟨hchecked.inForce hunset, hchecked.later, hchecked.isCurrent⟩⟩
  | returned facade executor settled selected current =>
    obtain ⟨hchecked, hunset, _⟩ := hsound
    refine ⟨fun h hbetween => h.1.unset hbetween.2, fun h => ?_⟩
    refine ⟨hchecked.inForce (fun hset => h ⟨hunset, hset⟩), hchecked.later, hchecked.isCurrent⟩
  | reset lease replaced cleared seen =>
    obtain ⟨hreplaced, hseen, _, hbackend, hcleared⟩ := hsound
    exact ⟨fun _ => trivial, fun _ => ⟨hreplaced, hseen, hbackend, hcleared⟩⟩
  | reported status verified cached serial generation selected => exact ⟨fun _ => trivial, fun _ => trivial⟩

def phone : DeviceInfo := { serial := ['s'], mode := adbMode, transportId := ['1'] }

def connected : DeviceManager Unit Nat :=
  (DeviceManager.init .ascii true ['s'] ['P', 'h', 'o', 'n', 'e'] ⟨0, 1, 2, 3⟩).setActive phone none

def phoneContext : DeviceContext Nat :=
  ⟨['s'], adbMode, ['1'], ['s'], ['P', 'h', 'o', 'n', 'e'], ⟨0, 1, 2, 3⟩, 1⟩

def rootFacade : Facade Nat := ⟨.root, phoneContext, 0, .directShell⟩

def selecting (backend : Backend) : Action Nat Answer (Request Nat) (Change Unit Nat) :=
  .environment (.select (some (.str backend.text)))

def resetting : List (Action Nat Answer (Request Nat) (Change Unit Nat)) := [.call 1 .reset, .run 1 {}, .run 1 {}]

/-- Root is prepared and runs a command; after the check of the event the mode goes to Standard and
back, with a reset each time, before the thread goes on. -/
def thereAndBack : List (Action Nat Answer (Request Nat) (Change Unit Nat)) :=
  .call 0 (.prepareAdb phoneContext none) :: List.replicate 29 (.run 0 { rootUid := true }) ++
    .call 0 (.runShell rootFacade) :: List.replicate 7 (.run 0 {}) ++
    selecting .standard :: resetting ++ selecting .root :: resetting ++ List.replicate 3 (.run 0 {})

def rootSelected : Pool Nat (PrivilegeManager Unit Nat) Answer Raised :=
  idle (Manager.init (some (.str Backend.root.text)) connected)

def returnedLate : Entry Unit Nat → Bool
  | .returned facade _ _ selected _ => facade.backendCancelEvent ∈ selected.finished
  | _ => false

/-- The result is returned although the mode was changed and reset twice. -/
theorem returned_after_changes : ∃ t, exec (step (start .ascii) (environment .ascii)) rootSelected thereAndBack =
    some t ∧ ∃ e ∈ t.shared.log, ¬Upheld .ascii e := by
  have hlate : (exec (step (start .ascii) (environment .ascii)) rootSelected thereAndBack).any
      (fun t => t.shared.log.any returnedLate) = true := by decide +kernel
  obtain ⟨t, ht, hlog⟩ := (Option.any_eq_true _ _).mp hlate
  obtain ⟨e, he, hreturned⟩ := List.any_eq_true.mp hlog
  refine ⟨t, ht, e, he, fun hupheld => ?_⟩
  cases e with
  | returned facade executor settled selected current =>
    exact hupheld.1.unset (of_decide_eq_true hreturned)
  | handed facade executor selected current => cases hreturned
  | reset lease replaced cleared seen => cases hreturned
  | reported status verified cached serial generation selected => cases hreturned

/-- Without the changes the result is returned in the mode of the facade. -/
theorem upheld_in_root : ∃ t, exec (step (start .ascii) (environment .ascii)) rootSelected
      (.call 0 (.prepareAdb phoneContext none) :: List.replicate 29 (.run 0 { rootUid := true }) ++
        .call 0 (.runShell rootFacade) :: List.replicate 10 (.run 0 {})) = some t ∧
    t.shared.log.length = 2 ∧ ∀ e ∈ t.shared.log, Upheld .ascii e ↔ Undisturbed e := by
  have hlength : (exec (step (start .ascii) (environment .ascii)) rootSelected
      (.call 0 (.prepareAdb phoneContext none) :: List.replicate 29 (.run 0 { rootUid := true }) ++
        .call 0 (.runShell rootFacade) :: List.replicate 10 (.run 0 {}))).any
      (fun t => t.shared.log.length = 2) = true := by decide +kernel
  obtain ⟨t, ht, hlog⟩ := (Option.any_eq_true _ _).mp hlength
  exact ⟨t, ht, of_decide_eq_true hlog, facades_upheld ht⟩

end OpenAdb.Privilege.Facades
