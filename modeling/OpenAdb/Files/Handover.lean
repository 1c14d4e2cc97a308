import OpenAdb.Files.Requests

namespace OpenAdb.Files.Requests

open OpenAdb.Lib.PyText OpenAdb.Lib.Runs OpenAdb.Lib.Handover
open OpenAdb.Context.Device (DeviceContext DeviceManager ProfilePaths)
open OpenAdb.Context.Operations (OperationToken OperationRegistry)

variable {τ π : Type}

namespace FileManagerPage

def waiting (s : FileManagerPage τ π) : List (Request π) :=
  (s.pendingTransferStart.map .transfer).toList ++ (s.pendingAndroidStart.map .android).toList

def ledger (s : FileManagerPage τ π) : Ledger where
  arrived := s.confirmed.length
  waiting := s.waiting.map (·.id)
  handed := s.handed.map (·.request.id)

/-- A slot for tokens has this one. -/
def Holds (s : FileManagerPage τ π) (held : HeldToken π) : Prop :=
  s.transferToken = some held ∨ s.rootCheckToken = some held ∨ s.androidRefreshToken = some held ∨
    s.androidStorageToken = some held

structure Inv (u : UnicodeData) (s : FileManagerPage τ π) : Prop where
  ledger : s.ledger.Inv
  waiting : ∀ r ∈ s.waiting, s.confirmed[r.id]? = some r
  handed : ∀ h ∈ s.handed, s.confirmed[h.request.id]? = some h.request ∧ h ∈ s.issued
  registry : OperationRegistry.Inv s.operations
  held : ∀ held, s.Holds held → held.token ∈ s.operations.created
  created : ∀ i ∈ s.issued, i.token ∈ s.operations.created
  exclusive : ∀ i ∈ s.issued, i.request.exclusive = true →
    strip u (deviceExclusive i.request.deviceContext.serial) ∈ i.token.conflictGroups
  tokens : (s.issued.map (·.token)).Nodup
  closing : s.workersShuttingDown = true → s.operations.shuttingDown = true

/-- The step confirms, issues and hands over nothing. -/
structure Quiet (s t : FileManagerPage τ π) : Prop where
  deviceManager : t.deviceManager = s.deviceManager
  workersShuttingDown : t.workersShuttingDown = s.workersShuttingDown
  confirmed : t.confirmed = s.confirmed
  issued : t.issued = s.issued
  handed : t.handed = s.handed
  transfer : t.pendingTransferStart = s.pendingTransferStart ∨ t.pendingTransferStart = none
  android : t.pendingAndroidStart = s.pendingAndroidStart ∨ t.pendingAndroidStart = none
  registry : OperationRegistry.Inv t.operations
  created : ∀ token ∈ s.operations.created, token ∈ t.operations.created
  shuttingDown : t.operations.shuttingDown = s.operations.shuttingDown
  held : ∀ held, t.Holds held → held.token ∈ t.operations.created

/-- What a handler may do: nothing dead comes back, apart from the request that it starts, and what
it hands over belongs to the present device of a page that does not shut down. -/
structure Later [DecidableEq π] (u : UnicodeData) (exempt : Option Nat) (s t : FileManagerPage τ π) : Prop where
  deviceManager : t.deviceManager = s.deviceManager
  workersShuttingDown : t.workersShuttingDown = s.workersShuttingDown
  ledger : Ledger.Later exempt s.ledger t.ledger
  handed : ∀ h ∈ t.handed, h ∈ s.handed ∨
    s.isContextCurrent u h.request.deviceContext = true ∧ s.workersShuttingDown = false

variable {u : UnicodeData} {uuid : Nat → Text} {s t r : FileManagerPage τ π} {exempt : Option Nat}

theorem Quiet.trans (h : Quiet s t) (h' : Quiet t r) : Quiet s r where
  deviceManager := h'.deviceManager.trans h.deviceManager
  workersShuttingDown := h'.workersShuttingDown.trans h.workersShuttingDown
  confirmed := h'.confirmed.trans h.confirmed
  issued := h'.issued.trans h.issued
  handed := h'.handed.trans h.handed
  transfer := h'.transfer.elim (fun heq => h.transfer.imp heq.trans heq.trans) .inr
  android := h'.android.elim (fun heq => h.android.imp heq.trans heq.trans) .inr
  registry := h'.registry
  created token hmem := h'.created token (h.created token hmem)
  shuttingDown := h'.shuttingDown.trans h.shuttingDown
  held := h'.held

theorem Quiet.sublist (h : Quiet s t) : t.waiting.Sublist s.waiting := by
  rw [waiting, waiting]
  refine List.Sublist.append ?_ ?_
  · obtain heq | heq := h.transfer
    · rw [heq]
    · rw [heq]
      exact List.nil_sublist _
  · obtain heq | heq := h.android
    · rw [heq]
    · rw [heq]
      exact List.nil_sublist _

theorem Quiet.ledger_eq (h : Quiet s t) :
    t.ledger = { s.ledger with waiting := t.waiting.map (·.id) } := by
  rw [ledger, h.confirmed, h.handed]
  rfl

theorem Inv.quiet (h : Inv u s) (hq : Quiet s t) : Inv u t where
  ledger := by
    rw [hq.ledger_eq]
    exact h.ledger.drop (hq.sublist.map _)
  waiting r hr := by
    rw [hq.confirmed]
    exact h.waiting r (hq.sublist.subset hr)
  handed i hi := by
    rw [hq.confirmed, hq.issued]
    exact h.handed i (hq.handed ▸ hi)
  registry := hq.registry
  held := hq.held
  created i hi := hq.created _ (h.created i (hq.issued ▸ hi))
  exclusive i hi := h.exclusive i (hq.issued ▸ hi)
  tokens := by
    rw [hq.issued]
    exact h.tokens
  closing hclosing := by
    rw [hq.shuttingDown]
    exact h.closing (hq.workersShuttingDown ▸ hclosing)

theorem Inv.quiet_refl (h : Inv u s) : Quiet s s :=
  ⟨rfl, rfl, rfl, rfl, rfl, .inl rfl, .inl rfl, h.registry, fun _ => id, rfl, h.held⟩

/-- Two quiet steps, the second from a state that is sound because the first one was quiet. -/
theorem Inv.andThen (h : Inv u s) (hq : Quiet s t) (hnext : Inv u t → Quiet t r) : Quiet s r :=
  hq.trans (hnext (h.quiet hq))

/-- Everything that the requests and tokens depend on, apart from the slots for tokens. -/
def core (s : FileManagerPage τ π) :=
  (s.deviceManager, s.operations, s.workersShuttingDown, s.confirmed, s.issued, s.handed)

theorem Inv.flags (h : Inv u s) (hcore : t.core = s.core)
    (htransfer : t.pendingTransferStart = s.pendingTransferStart ∨ t.pendingTransferStart = none)
    (handroid : t.pendingAndroidStart = s.pendingAndroidStart ∨ t.pendingAndroidStart = none)
    (hheld : ∀ held, t.Holds held → held.token ∈ s.operations.created) : Quiet s t := by
  simp only [core, Prod.mk.injEq] at hcore
  obtain ⟨hmanager, hoperations, hshutting, hconfirmed, hissued, hhanded⟩ := hcore
  refine ⟨hmanager, hshutting, hconfirmed, hissued, hhanded, htransfer, handroid, ?_, ?_, ?_, ?_⟩
  · rw [hoperations]
    exact h.registry
  · rw [hoperations]
    exact fun _ => id
  · rw [hoperations]
  · rw [hoperations]
    exact hheld

/-- A change of flags, paths and views. -/
theorem Inv.marks (h : Inv u s) (hcore : t.core = s.core)
    (htransfer : t.pendingTransferStart = s.pendingTransferStart)
    (handroid : t.pendingAndroidStart = s.pendingAndroidStart) (hheld : t.Holds = s.Holds) : Quiet s t :=
  h.flags hcore (.inl htransfer) (.inl handroid) (fun held hholds => h.held held (hheld ▸ hholds))

theorem Inv.operates (h : Inv u s) {operations : OperationRegistry τ}
    (hoperations : OperationRegistry.Inv operations ∧ OperationRegistry.Later s.operations operations)
    (hshutting : operations.shuttingDown = s.operations.shuttingDown) :
    Quiet s { s with operations := operations } :=
  ⟨rfl, rfl, rfl, rfl, rfl, .inl rfl, .inl rfl, hoperations.1, hoperations.2.created, hshutting,
    fun held hholds => hoperations.2.created held.token (h.held held hholds)⟩

theorem Inv.cancel (h : Inv u s) {token : OperationToken} (hcreated : token ∈ s.operations.created)
    (reason : Text) : Quiet s (s.cancel token reason) :=
  h.operates (h.registry.cancel hcreated reason) rfl

theorem Inv.finish (h : Inv u s) {token : OperationToken} (hcreated : token ∈ s.operations.created) :
    Quiet s (s.finish token) := by
  apply h.operates (h.registry.finish hcreated)
  rw [OperationRegistry.finish]
  split_ifs <;> rfl

theorem Inv.setPrivilegeLease (h : Inv u s) (token : OperationToken) (lease : Bool) :
    Quiet s (s.setPrivilegeLease token lease) :=
  h.operates (h.registry.setPrivilegeLease _) rfl

theorem Inv.cancelEach (h : Inv u s) {tokens : List OperationToken}
    (hcreated : ∀ token ∈ tokens, token ∈ s.operations.created) (reason : Text) :
    Quiet s (s.cancelEach tokens reason) := by
  induction tokens generalizing s with
  | nil => exact h.quiet_refl
  | cons token tokens ih =>
    have hq := h.cancel (hcreated token List.mem_cons_self) reason
    refine h.andThen hq (fun ht => ih ht fun other hmem => ?_)
    exact hq.created other (hcreated other (List.mem_cons_of_mem _ hmem))

/-- Cancelling a token and finishing it. -/
theorem Inv.discard (h : Inv u s) {token : OperationToken} (hcreated : token ∈ s.operations.created)
    (reason : Text) : Quiet s ((s.cancel token reason).finish token) := by
  have hq := h.cancel hcreated reason
  exact h.andThen hq (fun ht => ht.finish (hq.created token hcreated))

theorem Inv.startOperationWorker (h : Inv u s) {token : OperationToken}
    (hcreated : token ∈ s.operations.created) : Quiet s (s.startOperationWorker token).1 := by
  rw [FileManagerPage.startOperationWorker]
  split_ifs
  · exact h.discard hcreated _
  · exact h.quiet_refl

theorem deviceExclusive_mem (ownerKey conflictGroup : Text) (cancelEvent : Option Nat)
    (context : DeviceContext π) :
    strip u (deviceExclusive context.serial) ∈ OperationRegistry.normalizedGroups u
      (registerArguments ownerKey conflictGroup cancelEvent true context) := by
  have hlower : lowerAscii 'd' := by decide
  have hne : strip u (deviceExclusive context.serial) ≠ [] := strip_ne_nil (u.isSpace_lower 'd' hlower)
  have hgroups : strip u (deviceExclusive context.serial) ∈
      (((registerArguments ownerKey conflictGroup cancelEvent true context).conflictGroups.map (strip u)).filter
        (fun g => !g.isEmpty)).toFinset := by
    rw [List.mem_toFinset, List.mem_filter]
    refine ⟨List.mem_map_of_mem (List.mem_cons_of_mem _ List.mem_cons_self), ?_⟩
    rw [Bool.not_eq_true', List.isEmpty_eq_false_iff]
    exact hne
  rw [OperationRegistry.normalizedGroups]
  split
  · exact hgroups
  · exact Finset.mem_insert_of_mem hgroups

theorem Inv.clearAndroidListing (h : Inv u s) : Quiet s s.clearAndroidListing := h.marks rfl rfl rfl rfl

theorem Inv.clearStorage (h : Inv u s) : Quiet s s.clearStorage := h.marks rfl rfl rfl rfl

theorem Inv.clearWaitingTransferState (h : Inv u s) : Quiet s s.clearWaitingTransferState := by
  rw [FileManagerPage.clearWaitingTransferState]
  split_ifs
  · exact h.marks rfl rfl rfl rfl
  · exact h.quiet_refl

theorem Inv.takePendingTransfer (h : Inv u s) : Quiet s s.takePendingTransfer :=
  h.flags rfl (.inr rfl) (.inl rfl) h.held

theorem Inv.cancelPendingTransferStart (h : Inv u s) (privilegeOnly : Bool) :
    Quiet s (s.cancelPendingTransferStart privilegeOnly) := by
  rw [FileManagerPage.cancelPendingTransferStart]
  split
  · exact h.quiet_refl
  · split_ifs
    · exact h.quiet_refl
    · have hq : Quiet s { s with pendingTransferStart := none, androidRefreshDeferredUntilTransfer := false } :=
        h.flags rfl (.inr rfl) (.inl rfl) h.held
      exact h.andThen hq (·.clearWaitingTransferState)

theorem Inv.cancelPendingAndroidAction (h : Inv u s) : Quiet s s.cancelPendingAndroidAction :=
  h.flags rfl (.inl rfl) (.inr rfl) h.held

theorem Inv.holdStorage (h : Inv u s) {held : HeldToken π} (hcreated : held.token ∈ s.operations.created)
    (request : DeviceContext π) : Quiet s (s.holdStorage held request) := by
  refine h.flags rfl (.inl rfl) (.inl rfl) fun other hother => ?_
  obtain hother | hother | hother | hother := hother
  · exact h.held other (.inl hother)
  · exact h.held other (.inr (.inl hother))
  · exact h.held other (.inr (.inr (.inl hother)))
  · cases hother
    exact hcreated

theorem Inv.holdListing (h : Inv u s) {held : HeldToken π} (hcreated : held.token ∈ s.operations.created)
    (request : DeviceContext π) : Quiet s (s.holdListing held request) := by
  refine h.flags rfl (.inl rfl) (.inl rfl) fun other hother => ?_
  obtain hother | hother | hother | hother := hother
  · exact h.held other (.inl hother)
  · exact h.held other (.inr (.inl hother))
  · cases hother
    exact hcreated
  · exact h.held other (.inr (.inr (.inr hother)))

theorem Inv.holdRootCheck (h : Inv u s) {held : HeldToken π} (hcreated : held.token ∈ s.operations.created) :
    Quiet s (s.holdRootCheck held) := by
  refine h.flags rfl (.inl rfl) (.inl rfl) fun other hother => ?_
  obtain hother | hother | hother := hother
  · exact h.held other (.inl hother)
  · cases hother
    exact hcreated
  · exact h.held other (.inr (.inr hother))

theorem Inv.holdTransfer (h : Inv u s) {held : HeldToken π} (hcreated : held.token ∈ s.operations.created) :
    Quiet s (s.holdTransfer held) := by
  refine h.flags rfl (.inr rfl) (.inl rfl) fun other hother => ?_
  obtain hother | hother := hother
  · cases hother
    exact hcreated
  · exact h.held other (.inr hother)

theorem Inv.releaseTransfer (h : Inv u s) : Quiet s s.releaseTransfer := by
  refine h.flags rfl (.inl rfl) (.inl rfl) fun other hother => ?_
  obtain hother | hother := hother
  · cases hother
  · exact h.held other (.inr hother)

theorem Inv.releaseStorage (h : Inv u s) : Quiet s s.releaseStorage := by
  refine h.flags rfl (.inl rfl) (.inl rfl) fun other hother => ?_
  obtain hother | hother | hother | hother := hother
  · exact h.held other (.inl hother)
  · exact h.held other (.inr (.inl hother))
  · exact h.held other (.inr (.inr (.inl hother)))
  · cases hother

theorem Inv.releaseListing (h : Inv u s) : Quiet s s.releaseListing := by
  refine h.flags rfl (.inl rfl) (.inl rfl) fun other hother => ?_
  obtain hother | hother | hother | hother := hother
  · exact h.held other (.inl hother)
  · exact h.held other (.inr (.inl hother))
  · cases hother
  · exact h.held other (.inr (.inr (.inr hother)))

theorem Inv.releaseRootCheck (h : Inv u s) : Quiet s s.releaseRootCheck := by
  refine h.flags rfl (.inl rfl) (.inl rfl) fun other hother => ?_
  obtain hother | hother | hother := hother
  · exact h.held other (.inl hother)
  · cases hother
  · exact h.held other (.inr (.inr hother))

theorem Inv.cancelHeld (h : Inv u s) {slot : Option (HeldToken π)}
    (hslot : ∀ held, slot = some held → s.Holds held) (reason : Text) : Quiet s (s.cancelHeld slot reason) := by
  cases slot with
  | none => exact h.quiet_refl
  | some held => exact h.cancel (h.held held (hslot held rfl)) reason

theorem Inv.leavePath (h : Inv u s) : Quiet s s.leavePath := by
  rw [FileManagerPage.leavePath]
  have hcancel := h.cancelHeld (fun _ heq => .inr (.inr (.inl heq))) folderChanged
  exact h.andThen hcancel fun h₁ => h₁.andThen h₁.clearAndroidListing (·.marks rfl rfl rfl rfl)

theorem Inv.leaveFor (h : Inv u s) (path : Text) : Quiet s (s.leaveFor u path) := by
  rw [FileManagerPage.leaveFor]
  split_ifs
  · exact h.leavePath
  · exact h.quiet_refl

theorem Inv.setPath (h : Inv u s) (path : Text) : Quiet s (s.setPath path) := h.marks rfl rfl rfl rfl

theorem Inv.leasedTokens_created (h : Inv u s) : ∀ token ∈ s.leasedTokens, token ∈ s.operations.created := by
  intro token hmem
  obtain ⟨held, hheld, rfl⟩ := List.mem_map.mp (List.mem_of_mem_filter hmem)
  have hslot := List.reduceOption_mem_iff.mp hheld
  simp only [List.mem_cons, List.not_mem_nil, or_false] at hslot
  obtain hslot | hslot | hslot | hslot := hslot
  · exact h.held held (.inr (.inr (.inl hslot.symm)))
  · exact h.held held (.inr (.inr (.inr hslot.symm)))
  · exact h.held held (.inr (.inl hslot.symm))
  · exact h.held held (.inl hslot.symm)

theorem Inv.forgetListings (h : Inv u s) : Quiet s s.forgetListings := h.marks rfl rfl rfl rfl

/-- What `invalidate_privilege_backend_view` does after it has cancelled the waiting requests. -/
theorem Inv.invalidatePrivilegeBackendView (h : Inv u s) :
    Quiet ((s.cancelPendingTransferStart true).cancelPendingAndroidAction) s.invalidatePrivilegeBackendView := by
  have h₁ := h.quiet (h.cancelPendingTransferStart true)
  have h₂ := h₁.quiet h₁.cancelPendingAndroidAction
  rw [FileManagerPage.invalidatePrivilegeBackendView]
  refine h₂.andThen (h₂.cancelEach h₂.leasedTokens_created accessModeChanged) fun h₃ => ?_
  exact h₃.andThen h₃.forgetListings fun h₄ => h₄.andThen h₄.clearAndroidListing (·.clearStorage)

theorem Inv.cancelActiveTransfers (h : Inv u s) :
    Quiet (s.cancelPendingAndroidAction.cancelPendingTransferStart false) s.cancelActiveTransfers := by
  have h₁ := h.quiet h.cancelPendingAndroidAction
  have h₂ := h₁.quiet (h₁.cancelPendingTransferStart false)
  exact h₂.cancelHeld (fun _ heq => .inl heq) _

theorem Inv.withoutLease (h : Inv u s) (token : OperationToken) (without : Bool) :
    Quiet s (s.withoutLease token without) := by
  rw [FileManagerPage.withoutLease]
  split_ifs
  · exact h.setPrivilegeLease token false
  · exact h.quiet_refl

theorem Inv.refreshAgain (h : Inv u s) (storage : Bool) : Quiet s (s.refreshAgain storage) :=
  h.marks rfl rfl rfl rfl

/-- A token that no issued request has, with the group that the request needs. -/
structure Fresh (u : UnicodeData) (s : FileManagerPage τ π) (request : Request π) (token : OperationToken) :
    Prop where
  created : token ∈ s.operations.created
  unissued : ∀ i ∈ s.issued, i.token ≠ token
  exclusive : request.exclusive = true → strip u (deviceExclusive request.deviceContext.serial) ∈ token.conflictGroups

theorem Fresh.quiet {request : Request π} {token : OperationToken} (h : Fresh u s request token)
    (hq : Quiet s t) : Fresh u t request token :=
  ⟨hq.created token h.created, fun i hi => h.unissued i (hq.issued ▸ hi), h.exclusive⟩

theorem hand_ledger (s : FileManagerPage τ π) (issued : Issued π) :
    (s.hand issued).ledger = { s.ledger with handed := s.ledger.handed ++ [issued.request.id] } := by
  rw [ledger, ledger, hand, List.map_append]
  rfl

theorem startOperationWorker_running (hrunning : s.workersShuttingDown = false) (token : OperationToken) :
    s.startOperationWorker token = (s, true) := by
  rw [startOperationWorker, hrunning]
  rfl

theorem ledger_waiting (hconfirmed : t.confirmed = s.confirmed) (hhanded : t.handed = s.handed) :
    t.ledger = { s.ledger with waiting := t.waiting.map (·.id) } := by
  rw [ledger, hconfirmed, hhanded]
  rfl

/-- A request that waited is no longer held by anybody once it is taken out of its slot. -/
theorem Inv.dead_taken (h : Inv u s) {request : Request π} (hq : Quiet s t)
    (hwaiting : s.waiting.Perm (request :: t.waiting)) : t.ledger.Dead request.id := by
  rw [hq.ledger_eq]
  have hids : (s.ledger.waiting).Perm (request.id :: t.waiting.map (·.id)) := hwaiting.map _
  refine h.ledger.dead_drop (hids.mem_iff.mpr List.mem_cons_self) ?_
  have hnodup : s.ledger.waiting.Nodup := h.ledger.nodup.of_append_left
  exact (List.nodup_cons.mp (hids.nodup_iff.mp hnodup)).1

theorem waiting_transfer {pending : PendingTransferStart π} (hslot : s.pendingTransferStart = some pending)
    (hnone : t.pendingTransferStart = none) (hsame : t.pendingAndroidStart = s.pendingAndroidStart) :
    s.waiting.Perm (.transfer pending :: t.waiting) := by
  rw [waiting, waiting, hslot, hnone, hsame]
  rfl

theorem waiting_android {pending : PendingAndroidStart π} (hslot : s.pendingAndroidStart = some pending)
    (hnone : t.pendingAndroidStart = none) (hsame : t.pendingTransferStart = s.pendingTransferStart) :
    s.waiting.Perm (.android pending :: t.waiting) := by
  rw [waiting, waiting, hslot, hnone, hsame, Option.map_none, Option.toList_none, List.append_nil]
  exact List.perm_append_singleton _ _

theorem Inv.forgetRefreshes (h : Inv u s) : Quiet s s.forgetRefreshes := h.marks rfl rfl rfl rfl

theorem confirm_ledger (s : FileManagerPage τ π) (request : Request π) :
    (s.confirm request).ledger = { s.ledger with arrived := s.ledger.arrived + 1 } := by
  rw [ledger, ledger, confirm, List.length_append]
  rfl

theorem getElem?_confirm {l : List (Request π)} {request r : Request π} {i : Nat} (h : l[i]? = some r) :
    (l ++ [request])[i]? = some r := by
  rw [List.getElem?_append_left (List.getElem?_eq_some_iff.mp h).1]
  exact h

theorem ended_eq {held : HeldToken π} (hstep : s.ended held t = some r) :
    held.token ∈ s.operations.created ∧ t = r := by
  rw [ended] at hstep
  split_ifs at hstep with hcreated
  exact ⟨hcreated, Option.some.inj hstep⟩

theorem Inv.init (supported : Bool) (serial kind : Text) (paths : ProfilePaths π) (path : Text) :
    Inv u (init u supported serial kind paths path : FileManagerPage τ π) where
  ledger := ⟨fun _ hi => (List.not_mem_nil hi).elim, .nil⟩
  waiting _ hr := (List.not_mem_nil hr).elim
  handed _ hi := (List.not_mem_nil hi).elim
  registry := OperationRegistry.Inv.new
  held _ hholds := by
    obtain hslot | hslot | hslot | hslot := hholds <;> cases hslot
  created _ hi := (List.not_mem_nil hi).elim
  exclusive _ hi := (List.not_mem_nil hi).elim
  tokens := .nil
  closing hclosing := by cases hclosing

/-- A request that waited and waits no longer is dead, when nothing was handed over. -/
theorem Inv.dead_gone (h : Inv u s) (hq : Quiet s t) {q : Request π} (hmem : q ∈ s.waiting)
    (hgone : q ∉ t.waiting) : t.ledger.Dead q.id := by
  rw [hq.ledger_eq]
  refine h.ledger.dead_drop (List.mem_map_of_mem hmem) fun hid => ?_
  obtain ⟨r, hr, hrq⟩ := List.mem_map.mp hid
  have hsame := h.waiting r (hq.sublist.subset hr)
  rw [hrq, h.waiting q hmem] at hsame
  cases hsame
  exact hgone hr

theorem waiting_of_invalidated {q : Request π}
    (hmem : q ∈ ((s.cancelPendingTransferStart true).cancelPendingAndroidAction).waiting) : q.isP2p = true := by
  rw [waiting, cancelPendingAndroidAction, cancelPendingTransferStart] at hmem
  cases hslot : s.pendingTransferStart with
  | none => simp [hslot] at hmem
  | some pending =>
    by_cases hp2p : pending.plan.isP2p = true
    · simp only [hslot, hp2p, Bool.and_self, if_true, Option.map_some, Option.toList_some, Option.map_none,
        Option.toList_none, List.append_nil, List.mem_singleton] at hmem
      rw [hmem]
      exact hp2p
    · simp only [hslot, hp2p, Bool.and_false, Bool.false_eq_true, if_false] at hmem
      rw [clearWaitingTransferState] at hmem
      split_ifs at hmem <;> simp at hmem

theorem waiting_of_cancelled {q : Request π} :
    q ∉ (s.cancelPendingAndroidAction.cancelPendingTransferStart false).waiting := by
  intro hmem
  rw [waiting, cancelPendingTransferStart] at hmem
  cases hslot : s.pendingTransferStart with
  | none => simp [hslot, cancelPendingAndroidAction] at hmem
  | some pending =>
    simp only [hslot, cancelPendingAndroidAction, Bool.false_and, Bool.false_eq_true, if_false] at hmem
    rw [clearWaitingTransferState] at hmem
    split_ifs at hmem <;> simp at hmem

variable [DecidableEq π]

theorem Quiet.isContextCurrent (h : Quiet s t) (context : DeviceContext π) :
    t.isContextCurrent u context = s.isContextCurrent u context := by
  rw [FileManagerPage.isContextCurrent, h.deviceManager]
  rfl

theorem Quiet.later (h : Quiet s t) : Later u none s t where
  deviceManager := h.deviceManager
  workersShuttingDown := h.workersShuttingDown
  ledger := by
    rw [h.ledger_eq]
    exact Ledger.later_drop (h.sublist.map _)
  handed i hi := .inl (h.handed ▸ hi)

theorem Later.trans (h : Later u exempt s t) (h' : Later u exempt t r) : Later u exempt s r where
  deviceManager := h'.deviceManager.trans h.deviceManager
  workersShuttingDown := h'.workersShuttingDown.trans h.workersShuttingDown
  ledger := h.ledger.trans h'.ledger
  handed i hi := by
    obtain hi | ⟨hcurrent, hrunning⟩ := h'.handed i hi
    · exact h.handed i hi
    · rw [isContextCurrent, h.deviceManager] at hcurrent
      rw [h.workersShuttingDown] at hrunning
      exact .inr ⟨hcurrent, hrunning⟩

theorem Later.exempting (h : Later u none s t) (exempt : Option Nat) : Later u exempt s t :=
  ⟨h.deviceManager, h.workersShuttingDown, h.ledger.exempting exempt, h.handed⟩

/-- What is proved of a handler. -/
def Follows (u : UnicodeData) (exempt : Option Nat) (s t : FileManagerPage τ π) : Prop :=
  Inv u t ∧ Later u exempt s t

theorem Inv.follows (h : Inv u s) (hq : Quiet s t) : Follows u exempt s t :=
  ⟨h.quiet hq, hq.later.exempting exempt⟩

theorem Follows.trans (h : Follows u exempt s t) (h' : Follows u exempt t r) : Follows u exempt s r :=
  ⟨h'.1, h.2.trans h'.2⟩

theorem Follows.quiet (h : Follows u exempt s t) (hq : Inv u t → Quiet t r) : Follows u exempt s r :=
  h.trans (h.1.follows (hq h.1))

/-- The token of a captured operation. -/
structure Captured (u : UnicodeData) (s t : FileManagerPage τ π) (expected : Option (DeviceContext π))
    (exclusive : Bool) (held : HeldToken π) : Prop where
  quiet : Quiet s t
  created : held.token ∈ t.operations.created
  fresh : held.token ∉ s.operations.created
  current : s.isContextCurrent u held.deviceContext = true
  expected : ∀ context, expected = some context → held.deviceContext = context
  accepted : s.workersShuttingDown = false
  exclusive : exclusive = true → strip u (deviceExclusive held.deviceContext.serial) ∈ held.token.conflictGroups

theorem Inv.bindOperation (h : Inv u s) {held : HeldToken π} (hcreated : held.token ∈ s.operations.created) :
    Quiet s (s.bindOperation u held).1 ∧
      ∀ token, (s.bindOperation u held).2 = some token → (s.bindOperation u held).1 = s ∧ token = held := by
  rw [FileManagerPage.bindOperation]
  split_ifs
  · exact ⟨h.discard hcreated _, fun _ hnone => nomatch hnone⟩
  · exact ⟨h.discard hcreated _, fun _ hnone => nomatch hnone⟩
  · exact ⟨h.quiet_refl, fun _ heq => ⟨rfl, (Option.some.inj heq).symm⟩⟩

theorem Inv.capture (h : Inv u s) (ownerKey conflictGroup : Text) (cancelEvent : Option Nat)
    (exclusive : Bool) (expected : Option (DeviceContext π)) {held : Option (HeldToken π)}
    (hcapture : s.captureDeviceOperation u uuid ownerKey conflictGroup cancelEvent exclusive expected =
      (t, held)) :
    Quiet s t ∧ ∀ token, held = some token → Captured u s t expected exclusive token := by
  rw [captureDeviceOperation] at hcapture
  split at hcapture
  · cases hcapture
    exact ⟨h.quiet_refl, fun _ hnone => nomatch hnone⟩
  rename_i context hcontext
  by_cases hmode : (!adbOrRecovery context.mode) = true
  · rw [if_pos hmode] at hcapture
    cases hcapture
    exact ⟨h.quiet_refl, fun _ hnone => nomatch hnone⟩
  rw [if_neg hmode] at hcapture
  by_cases hcurrent : (!s.isContextCurrent u context) = true
  · rw [if_pos hcurrent] at hcapture
    cases hcapture
    exact ⟨h.quiet_refl, fun _ hnone => nomatch hnone⟩
  rw [if_neg hcurrent] at hcapture
  split at hcapture
  · cases hcapture
    exact ⟨h.quiet_refl, fun _ hnone => nomatch hnone⟩
  rename_i operations hregister
  obtain ⟨hopen, hoperations⟩ := OperationRegistry.register_ok hregister
  have hregistered := h.operates (h.registry.register hregister) (by rw [hoperations])
  generalize htoken : s.operations.newToken u
    (registerArguments ownerKey conflictGroup cancelEvent exclusive context)
    (uuid s.operations.created.length) = token at hcapture hoperations
  have hleased := h.andThen hregistered (fun ht => ht.setPrivilegeLease token true)
  have hcreated : token ∈ operations.created := by
    rw [hoperations]
    exact List.mem_append_right _ List.mem_cons_self
  have hbind : (⟨token, context⟩ : HeldToken π).token ∈ operations.created := hcreated
  obtain ⟨hbound, hsame⟩ := (h.quiet hleased).bindOperation hbind
  rw [hcapture] at hbound hsame
  refine ⟨hleased.trans hbound, fun held' hheld => ?_⟩
  obtain ⟨rfl, rfl⟩ := hsame held' hheld
  subst htoken
  refine ⟨hleased, hcreated, fun hold => ?_, ?_, fun expectedContext hexpected => ?_, ?_, fun hexclusive => ?_⟩
  · exact h.registry.registered.fresh hold rfl
  · rwa [Bool.not_eq_true', Bool.not_eq_false] at hcurrent
  · rw [hexpected] at hcontext
    cases hcontext
    rfl
  · refine Bool.eq_false_iff.mpr fun hclosing => ?_
    rw [h.closing hclosing] at hopen
    cases hopen
  · subst hexclusive
    exact deviceExclusive_mem ownerKey conflictGroup cancelEvent context

theorem Inv.clearStaleView (h : Inv u s) : Quiet s (s.clearStaleView u) := by
  rw [FileManagerPage.clearStaleView]
  split_ifs
  · exact h.clearAndroidListing
  · exact h.quiet_refl

theorem Inv.clearStaleStorage (h : Inv u s) : Quiet s (s.clearStaleStorage u) := by
  rw [FileManagerPage.clearStaleStorage]
  split_ifs
  · exact h.clearStorage
  · exact h.quiet_refl

theorem Inv.invalidateStaleDeviceView (h : Inv u s) : Quiet s (s.invalidateStaleDeviceView u) := by
  rw [FileManagerPage.invalidateStaleDeviceView]
  have hcleared := h.andThen h.clearStaleView (·.clearStaleStorage)
  split_ifs
  · refine h.andThen hcleared fun ht => ?_
    exact ht.andThen (ht.cancelPendingTransferStart false) (·.cancelPendingAndroidAction)
  · exact hcleared

theorem Inv.clearOtherStorage (h : Inv u s) (context : DeviceContext π) :
    Quiet s (s.clearOtherStorage context) := by
  rw [FileManagerPage.clearOtherStorage]
  split_ifs
  · exact h.clearStorage
  · exact h.quiet_refl

theorem Inv.clearOtherView (h : Inv u s) (context : DeviceContext π) :
    Quiet s (s.clearOtherView u context) := by
  rw [FileManagerPage.clearOtherView]
  split_ifs
  · exact h.clearAndroidListing
  · exact h.quiet_refl

theorem Inv.refreshAndroidStorageRoots (h : Inv u s) : Quiet s (s.refreshAndroidStorageRoots u uuid) := by
  rw [FileManagerPage.refreshAndroidStorageRoots]
  refine h.andThen h.invalidateStaleDeviceView fun h₁ => ?_
  generalize s.invalidateStaleDeviceView u = s₁ at h₁
  split_ifs
  · exact h₁.clearStorage
  · exact h₁.marks rfl rfl rfl rfl
  · exact h₁.marks rfl rfl rfl rfl
  · exact h₁.marks rfl rfl rfl rfl
  · exact h₁.clearStorage
  split
  · exact h₁.quiet_refl
  split
  · rename_i hcapture
    exact (h₁.capture _ _ _ _ _ hcapture).1
  rename_i request _ _ s₂ held hcapture
  have hcaptured := (h₁.capture _ _ _ _ _ hcapture).2 held rfl
  refine h₁.andThen hcaptured.quiet fun h₂ => ?_
  have hclear := h₂.clearOtherStorage held.deviceContext
  have hcreated := hclear.created _ hcaptured.created
  refine h₂.andThen hclear fun h₃ => h₃.andThen (h₃.holdStorage hcreated request) fun h₄ => ?_
  exact h₄.startOperationWorker hcreated

theorem Inv.refreshAndroid (h : Inv u s) : Quiet s (s.refreshAndroid u uuid) := by
  rw [FileManagerPage.refreshAndroid]
  refine h.andThen h.invalidateStaleDeviceView fun h₁ => ?_
  generalize s.invalidateStaleDeviceView u = s₁ at h₁
  split_ifs
  · exact h₁.clearAndroidListing
  · exact h₁.marks rfl rfl rfl rfl
  · exact h₁.marks rfl rfl rfl rfl
  · exact h₁.marks rfl rfl rfl rfl
  · exact h₁.clearAndroidListing
  split
  · exact h₁.quiet_refl
  split
  · rename_i hcapture
    exact (h₁.capture _ _ _ _ _ hcapture).1
  rename_i request _ _ s₂ held hcapture
  have hcaptured := (h₁.capture _ _ _ _ _ hcapture).2 held rfl
  refine h₁.andThen hcaptured.quiet fun h₂ => ?_
  have hclear := h₂.clearOtherView held.deviceContext
  have hcreated := hclear.created _ hcaptured.created
  refine h₂.andThen hclear fun h₃ => h₃.andThen (h₃.holdListing hcreated request) fun h₄ => ?_
  exact h₄.startOperationWorker hcreated

theorem Inv.refreshBoth (h : Inv u s) :
    Quiet s ((s.refreshAndroidStorageRoots u uuid).refreshAndroid u uuid) :=
  h.andThen h.refreshAndroidStorageRoots (·.refreshAndroid)

theorem Inv.refreshAll (h : Inv u s) : Quiet s (s.refreshAll u uuid) :=
  h.andThen h.invalidateStaleDeviceView (·.refreshBoth)

theorem Inv.maybeStartPrivilegeBackendRefresh (h : Inv u s) :
    Quiet s (s.maybeStartPrivilegeBackendRefresh u uuid).1 := by
  rw [FileManagerPage.maybeStartPrivilegeBackendRefresh]
  have hflag : Quiet s { s with privilegeRefreshPending := false } := h.marks rfl rfl rfl rfl
  dsimp only
  split_ifs
  · exact h.quiet_refl
  · exact hflag
  · exact h.quiet_refl
  · exact h.quiet_refl
  · exact h.andThen hflag (·.refreshAll)

theorem Inv.refreshDeferred (h : Inv u s) (deferred : Bool) : Quiet s (s.refreshDeferred u uuid deferred) := by
  rw [FileManagerPage.refreshDeferred]
  split_ifs
  · exact h.refreshBoth
  · exact h.quiet_refl

theorem Inv.transferWorkerFinished (h : Inv u s) {held : HeldToken π}
    (hcreated : held.token ∈ s.operations.created) (refresh : Bool) :
    Quiet s (s.transferWorkerFinished u uuid held refresh) := by
  rw [FileManagerPage.transferWorkerFinished]
  have hfinish := h.finish hcreated
  have hrefreshed : Quiet s ((s.finish held.token).releaseTransfer.refreshDeferred u uuid
      s.androidRefreshDeferredUntilTransfer) :=
    h.andThen hfinish fun h₁ => h₁.andThen h₁.releaseTransfer (·.refreshDeferred _)
  dsimp only
  split_ifs
  · exact hrefreshed
  · refine h.andThen hrefreshed fun h₂ => ?_
    exact h₂.andThen h₂.refreshAndroid (·.maybeStartPrivilegeBackendRefresh)
  · exact h.andThen hrefreshed (·.maybeStartPrivilegeBackendRefresh)
  · exact hfinish

theorem Inv.androidFinished (h : Inv u s) {held : HeldToken π} (hcreated : held.token ∈ s.operations.created)
    (refresh : Bool) : Quiet s (s.androidFinished u uuid held refresh) := by
  rw [FileManagerPage.androidFinished]
  refine h.andThen (h.finish hcreated) fun h₁ => ?_
  split_ifs
  · exact h₁.andThen h₁.refreshAndroid (·.maybeStartPrivilegeBackendRefresh)
  · exact h₁.maybeStartPrivilegeBackendRefresh

theorem Inv.rootCheckFinished (h : Inv u s) {held : HeldToken π} (hcreated : held.token ∈ s.operations.created) :
    Quiet s (s.rootCheckFinished u uuid held) := by
  rw [FileManagerPage.rootCheckFinished]
  have hfinish := h.finish hcreated
  split_ifs
  · refine h.andThen hfinish fun h₁ => ?_
    exact h₁.andThen h₁.releaseRootCheck (·.maybeStartPrivilegeBackendRefresh)
  · exact hfinish

theorem Inv.checkRootAvailability (h : Inv u s) : Quiet s (s.checkRootAvailability u uuid) := by
  rw [FileManagerPage.checkRootAvailability]
  split_ifs
  · exact h.quiet_refl
  split
  · rename_i hcapture
    exact (h.capture _ _ _ _ _ hcapture).1
  · rename_i held hcapture
    have hcaptured := (h.capture _ _ _ _ _ hcapture).2 held rfl
    refine h.andThen hcaptured.quiet fun h₁ => ?_
    exact h₁.andThen (h₁.holdRootCheck hcaptured.created) (·.startOperationWorker hcaptured.created)

theorem Inv.androidItemsLoaded (h : Inv u s) (held : HeldToken π) (path : Text) :
    Quiet s (s.androidItemsLoaded u held path) := by
  rw [FileManagerPage.androidItemsLoaded]
  split_ifs
  · exact h.marks rfl rfl rfl rfl
  · exact h.quiet_refl

theorem Inv.androidStorageRootsLoaded (h : Inv u s) (held : HeldToken π) :
    Quiet s (s.androidStorageRootsLoaded u held) := by
  rw [FileManagerPage.androidStorageRootsLoaded]
  split_ifs
  · exact h.marks rfl rfl rfl rfl
  · exact h.quiet_refl

theorem Inv.navigateAndroid (h : Inv u s) (path : Text) (reloaded : Option Text) :
    Quiet s (s.navigateAndroid u uuid path reloaded) := by
  refine h.andThen (h.leaveFor path) fun h₁ => ?_
  cases reloaded with
  | some saved => exact h₁.setPath saved
  | none => exact h₁.andThen (h₁.setPath (normalizeAndroidPath u path)) (·.refreshAndroid)

theorem Inv.requestPrivilegeBackendRefresh (h : Inv u s) :
    Quiet s (s.requestPrivilegeBackendRefresh u uuid) := by
  have hflag : Quiet s { s with privilegeRefreshPending := true } := h.marks rfl rfl rfl rfl
  exact h.andThen hflag (·.maybeStartPrivilegeBackendRefresh)

end FileManagerPage

end OpenAdb.Files.Requests
