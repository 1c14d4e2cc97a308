import Mathlib.Data.Finset.Disjoint
import OpenAdb.Files.Handover

namespace OpenAdb.Files.Requests

open OpenAdb.Lib.PyText OpenAdb.Lib.Runs OpenAdb.Lib.Handover
open OpenAdb.Context.Device (DeviceContext DeviceManager ProfilePaths)
open OpenAdb.Context.Operations (OperationToken OperationRegistry)

variable {τ π : Type} [DecidableEq π]

namespace FileManagerPage

variable {u : UnicodeData} {uuid : Nat → Text} {s t r : FileManagerPage τ π} {exempt : Option Nat}

theorem Inv.issue (h : Inv u s) {request : Request π} {token : OperationToken}
    (hfresh : Fresh u s request token) : Follows u exempt s (s.issue ⟨request, token⟩) := by
  refine ⟨⟨h.ledger, h.waiting, fun i hi => ?_, h.registry, h.held, fun i hi => ?_, fun i hi => ?_, ?_,
    h.closing⟩, rfl, rfl, Ledger.Later.refl _ _, fun _ => .inl⟩
  · exact ⟨(h.handed i hi).1, List.mem_append_left _ (h.handed i hi).2⟩
  · obtain hi | hi := List.mem_append.mp hi
    · exact h.created i hi
    · rw [List.mem_singleton.mp hi]
      exact hfresh.created
  · obtain hi | hi := List.mem_append.mp hi
    · exact h.exclusive i hi
    · rw [List.mem_singleton.mp hi]
      exact hfresh.exclusive
  · rw [FileManagerPage.issue, List.map_append]
    refine List.nodup_append'.mpr ⟨h.tokens, List.nodup_singleton _, fun token' hmem hnew => ?_⟩
    obtain ⟨i, hi, rfl⟩ := List.mem_map.mp hmem
    exact hfresh.unissued i hi (List.mem_singleton.mp hnew)

/-- The worker of a request that nobody else holds is started. -/
theorem Inv.hand (h : Inv u s) {issued : Issued π} (hissued : issued ∈ s.issued)
    (hdead : s.ledger.Dead issued.request.id)
    (hconfirmed : s.confirmed[issued.request.id]? = some issued.request)
    (hcurrent : s.isContextCurrent u issued.request.deviceContext = true)
    (hrunning : s.workersShuttingDown = false) :
    Follows u (some issued.request.id) s (s.hand issued) := by
  refine ⟨⟨?_, h.waiting, fun i hi => ?_, h.registry, h.held, h.created, h.exclusive, h.tokens, h.closing⟩,
    rfl, rfl, ?_, fun i hi => ?_⟩
  · rw [hand_ledger]
    exact h.ledger.hand hdead
  · obtain hi | hi := List.mem_append.mp hi
    · exact h.handed i hi
    · rw [List.mem_singleton.mp hi]
      exact ⟨hconfirmed, hissued⟩
  · rw [hand_ledger]
    exact Ledger.later_hand _ _
  · obtain hi | hi := List.mem_append.mp hi
    · exact .inl hi
    · rw [List.mem_singleton.mp hi]
      exact .inr ⟨hcurrent, hrunning⟩

/-- Issuing the token and starting the worker, as transfers and actions do it. -/
theorem Inv.issue_hand (h : Inv u s) {request : Request π} {token : OperationToken}
    (hfresh : Fresh u s request token) (hdead : s.ledger.Dead request.id)
    (hconfirmed : s.confirmed[request.id]? = some request)
    (hcurrent : s.isContextCurrent u request.deviceContext = true)
    (hrunning : s.workersShuttingDown = false) :
    Follows u (some request.id) s ((s.issue ⟨request, token⟩).hand ⟨request, token⟩) := by
  have hissue : Follows u (some request.id) s (s.issue ⟨request, token⟩) := h.issue hfresh
  exact hissue.trans (hissue.1.hand (List.mem_append_right _ List.mem_cons_self) hdead hconfirmed hcurrent hrunning)

theorem Captured.quietly {request : Request π} {exclusive : Bool} {held : HeldToken π}
    (hcaptured : Captured u s t (some request.deviceContext) exclusive held) (h : Inv u s)
    (hexclusive : request.exclusive = exclusive) (hq : Quiet t r) : Fresh u r request held.token := by
  have hcontext := hcaptured.expected _ rfl
  have hfresh : Fresh u t request held.token := by
    refine ⟨hcaptured.created, fun i hi heq => ?_, fun hrequest => ?_⟩
    · rw [hcaptured.quiet.issued] at hi
      exact hcaptured.fresh (heq ▸ h.created i hi)
    · rw [← hcontext]
      exact hcaptured.exclusive (hexclusive ▸ hrequest)
  exact hfresh.quiet hq

/-- A captured token is issued and its worker started, for a request that nobody else holds. -/
theorem Captured.start {request : Request π} {exclusive : Bool} {held : HeldToken π}
    (hcaptured : Captured u s t (some request.deviceContext) exclusive held) (h : Inv u s)
    (hexclusive : request.exclusive = exclusive) (hq : Quiet t r) (hdead : s.ledger.Dead request.id)
    (hconfirmed : s.confirmed[request.id]? = some request) :
    (r.issue ⟨request, held.token⟩).workersShuttingDown = false ∧
      Follows u (some request.id) s ((r.issue ⟨request, held.token⟩).hand ⟨request, held.token⟩) := by
  have hqr := hcaptured.quiet.trans hq
  have hrunning : r.workersShuttingDown = false := hqr.workersShuttingDown.trans hcaptured.accepted
  have hcurrent : r.isContextCurrent u request.deviceContext = true := by
    rw [hqr.isContextCurrent, ← hcaptured.expected _ rfl]
    exact hcaptured.current
  have hdead' : r.ledger.Dead request.id := hqr.later (u := u) |>.ledger.dead _ nofun hdead
  have hstart := (h.quiet hqr).issue_hand (hcaptured.quietly h hexclusive hq) hdead'
    (hqr.confirmed ▸ hconfirmed) hcurrent hrunning
  exact ⟨hrunning, (h.follows hqr).trans hstart⟩

theorem Inv.startPreparedTransfer (h : Inv u s) {pending : PendingTransferStart π}
    (hdead : s.ledger.Dead pending.id) (hconfirmed : s.confirmed[pending.id]? = some (.transfer pending)) :
    Follows u (some pending.id) s (s.startPreparedTransfer u uuid pending).1 := by
  rw [FileManagerPage.startPreparedTransfer]
  split
  · rename_i hcapture
    exact h.follows (h.capture _ _ _ _ _ hcapture).1
  · rename_i t held hcapture
    have hcaptured : Captured u s t (some (Request.transfer pending).deviceContext) true held :=
      (h.capture _ _ _ _ _ hcapture).2 held rfl
    have ht := h.quiet hcaptured.quiet
    have hlease := ht.withoutLease held.token pending.plan.isP2p
    have hhold := ht.andThen hlease (·.holdTransfer (hlease.created _ hcaptured.created))
    obtain ⟨hrunning, hstart⟩ := hcaptured.start h rfl hhold hdead hconfirmed
    rw [startOperationWorker_running hrunning]
    exact hstart

theorem Inv.startAndroidNow (h : Inv u s) {pending : PendingAndroidStart π}
    (hdead : s.ledger.Dead pending.id) (hconfirmed : s.confirmed[pending.id]? = some (.android pending)) :
    Follows u (some pending.id) s (s.startAndroidNow u uuid pending).1 := by
  rw [FileManagerPage.startAndroidNow]
  split_ifs
  · exact h.follows h.quiet_refl
  split
  · rename_i hcapture
    exact h.follows (h.capture _ _ _ _ _ hcapture).1
  · rename_i t held hcapture
    have hcaptured : Captured u s t (some (Request.android pending).deviceContext)
        (Request.android pending).exclusive held := (h.capture _ _ _ _ _ hcapture).2 held rfl
    have hlease := (h.quiet hcaptured.quiet).withoutLease held.token (pending.request.action = .installApk)
    obtain ⟨hrunning, hstart⟩ := hcaptured.start h rfl hlease hdead hconfirmed
    rw [startOperationWorker_running hrunning]
    exact hstart

theorem Inv.activePassiveListingTokens_created (h : Inv u s) (context : DeviceContext π) :
    ∀ token ∈ s.activePassiveListingTokens context, token ∈ s.operations.created := by
  intro token hmem
  obtain ⟨held, hheld, rfl⟩ := List.mem_map.mp hmem
  have hslot := List.reduceOption_mem_iff.mp (List.mem_of_mem_filter hheld)
  simp only [List.mem_cons, List.not_mem_nil, or_false] at hslot
  obtain hslot | hslot := hslot
  · exact h.held held (.inr (.inr (.inl hslot.symm)))
  · exact h.held held (.inr (.inr (.inr hslot.symm)))

/-- A request that nobody else holds begins to wait. -/
theorem Inv.wait (h : Inv u s) {request : Request π} (hcore : t.core = s.core) (hholds : t.Holds = s.Holds)
    (hwaiting : t.waiting.Perm (request :: s.waiting)) (hdead : s.ledger.Dead request.id)
    (hconfirmed : s.confirmed[request.id]? = some request) : Follows u (some request.id) s t := by
  simp only [core, Prod.mk.injEq] at hcore
  obtain ⟨hmanager, hoperations, hshutting, hconfirmations, hissued, hhanded⟩ := hcore
  have hids : (t.waiting.map (·.id)).Perm (request.id :: s.ledger.waiting) := hwaiting.map _
  have hledger := ledger_waiting hconfirmations hhanded
  refine ⟨⟨?_, fun r hr => ?_, ?_, ?_, ?_, ?_, ?_, ?_, ?_⟩, hmanager, hshutting, ?_, fun i hi => .inl (hhanded ▸ hi)⟩
  · rw [hledger]
    exact h.ledger.wait hdead hids
  · rw [hconfirmations]
    obtain rfl | hr := List.mem_cons.mp (hwaiting.mem_iff.mp hr)
    · exact hconfirmed
    · exact h.waiting r hr
  · rw [hconfirmations, hissued, hhanded]
    exact h.handed
  · rw [hoperations]
    exact h.registry
  · rw [hholds, hoperations]
    exact h.held
  · rw [hissued, hoperations]
    exact h.created
  · rw [hissued]
    exact h.exclusive
  · rw [hissued]
    exact h.tokens
  · rw [hshutting, hoperations]
    exact h.closing
  · rw [hledger]
    exact Ledger.later_wait hids

theorem Inv.startOrDeferTransfer (h : Inv u s) {pending : PendingTransferStart π}
    (hdead : s.ledger.Dead pending.id) (hconfirmed : s.confirmed[pending.id]? = some (.transfer pending)) :
    Follows u (some pending.id) s (s.startOrDeferTransfer u uuid pending) := by
  rw [FileManagerPage.startOrDeferTransfer]
  split_ifs with hempty hwaits
  · exact h.startPreparedTransfer hdead hconfirmed
  · exact h.follows h.quiet_refl
  · have hslot : s.pendingTransferStart = none := Option.not_isSome_iff_eq_none.mp hwaits
    have hwaiting : (s.deferTransfer pending).waiting.Perm (.transfer pending :: s.waiting) := by
      rw [FileManagerPage.waiting, FileManagerPage.waiting, hslot]
      rfl
    have hwait : Follows u (some (Request.transfer pending).id) s (s.deferTransfer pending) :=
      h.wait rfl rfl hwaiting hdead hconfirmed
    exact hwait.quiet (·.cancelEach (h.activePassiveListingTokens_created _) _)

theorem Inv.startAndroid (h : Inv u s) {pending : PendingAndroidStart π}
    (hdead : s.ledger.Dead pending.id) (hconfirmed : s.confirmed[pending.id]? = some (.android pending)) :
    Follows u (some pending.id) s (s.startAndroid u uuid pending).1 := by
  have hnow : Follows u (some pending.id) s (s.startAndroidNow u uuid pending).1 :=
    h.startAndroidNow hdead hconfirmed
  rw [FileManagerPage.startAndroid, deferAndroidStartUntilListingFinishes]
  split_ifs with hrunning hmutation hempty hwaits
  · exact h.follows h.quiet_refl
  · exact hnow
  · exact h.follows h.quiet_refl
  · have hslot : s.pendingAndroidStart = none := Option.not_isSome_iff_eq_none.mp hwaits
    have hwaiting : (s.deferAndroid pending).waiting.Perm (.android pending :: s.waiting) := by
      rw [FileManagerPage.waiting, FileManagerPage.waiting, hslot, Option.map_none, Option.toList_none,
        List.append_nil]
      exact List.perm_append_singleton _ _
    have hwait : Follows u (some (Request.android pending).id) s (s.deferAndroid pending) :=
      h.wait rfl rfl hwaiting hdead hconfirmed
    exact hwait.quiet (·.cancelEach (h.activePassiveListingTokens_created _) _)
  · exact hnow

/-- A request that is taken out of its slot and started was waiting before. -/
theorem Follows.of_taken {request : Request π} (h : Inv u s) (hq : Quiet s t)
    (hwaiting : s.waiting.Perm (request :: t.waiting)) (hstart : Follows u (some request.id) t r) :
    Follows u none s r := by
  have hall := (h.follows hq).trans hstart
  have hmem : request.id ∈ s.ledger.waiting :=
    List.mem_map_of_mem (hwaiting.mem_iff.mpr List.mem_cons_self)
  exact ⟨hall.1, hall.2.deviceManager, hall.2.workersShuttingDown, hall.2.ledger.of_waiting hmem, hall.2.handed⟩

theorem Inv.startPendingTransferIfReady (h : Inv u s) :
    Follows u none s (s.startPendingTransferIfReady u uuid).1 := by
  rw [FileManagerPage.startPendingTransferIfReady]
  split
  · exact h.follows h.quiet_refl
  rename_i pending hslot
  have htake := h.takePendingTransfer
  have hwaiting : s.waiting.Perm (.transfer pending :: s.takePendingTransfer.waiting) :=
    waiting_transfer hslot rfl rfl
  split_ifs
  · exact h.follows (h.cancelPendingTransferStart false)
  · exact h.follows h.quiet_refl
  · refine h.follows (h.andThen htake fun h₁ => ?_)
    exact h₁.andThen h₁.clearWaitingTransferState (·.refreshAgain true)
  · refine Follows.of_taken h htake hwaiting ?_
    have hconfirmed : s.takePendingTransfer.confirmed[pending.id]? = some (.transfer pending) :=
      h.waiting (.transfer pending) (hwaiting.mem_iff.mpr List.mem_cons_self)
    have hstart : Follows u (some pending.id) s.takePendingTransfer
        (s.takePendingTransfer.startPreparedTransfer u uuid pending).1 :=
      (h.quiet htake).startPreparedTransfer (h.dead_taken htake hwaiting) hconfirmed
    split
    · rename_i heq
      rw [heq] at hstart
      exact hstart
    · rename_i heq
      rw [heq] at hstart
      exact hstart.quiet fun h₁ => h₁.andThen h₁.clearWaitingTransferState (·.refreshAgain false)

theorem Inv.startPendingAndroidActionIfReady (h : Inv u s) :
    Follows u none s (s.startPendingAndroidActionIfReady u uuid).1 := by
  rw [FileManagerPage.startPendingAndroidActionIfReady]
  split
  · exact h.follows h.quiet_refl
  rename_i pending hslot
  have htake := h.cancelPendingAndroidAction
  split_ifs
  · exact h.follows htake
  · exact h.follows h.quiet_refl
  · exact h.follows (h.andThen htake (·.refreshAgain true))
  · have htake := h.andThen htake (·.forgetRefreshes)
    have hwaiting : s.waiting.Perm (.android pending :: s.cancelPendingAndroidAction.forgetRefreshes.waiting) :=
      waiting_android hslot rfl rfl
    refine Follows.of_taken h htake hwaiting ?_
    have hconfirmed : s.cancelPendingAndroidAction.forgetRefreshes.confirmed[pending.id]? =
        some (.android pending) :=
      h.waiting (.android pending) (hwaiting.mem_iff.mpr List.mem_cons_self)
    have hstart : Follows u (some pending.id) s.cancelPendingAndroidAction.forgetRefreshes
        (s.cancelPendingAndroidAction.forgetRefreshes.startAndroidNow u uuid pending).1 :=
      (h.quiet htake).startAndroidNow (h.dead_taken htake hwaiting) hconfirmed
    split
    · rename_i heq
      rw [heq] at hstart
      exact hstart
    · rename_i heq
      rw [heq] at hstart
      exact hstart.quiet (·.refreshAgain false)

theorem Inv.listingFinished (h : Inv u s) : Follows u none s (s.listingFinished u uuid) := by
  rw [FileManagerPage.listingFinished]
  have htransfer : Follows u none s (s.startPendingTransferIfReady u uuid).1 := h.startPendingTransferIfReady
  split
  · rename_i heq
    rw [heq] at htransfer
    exact htransfer
  rename_i s₁ heq
  rw [heq] at htransfer
  refine htransfer.trans ?_
  have handroid : Follows u none s₁ (s₁.startPendingAndroidActionIfReady u uuid).1 :=
    htransfer.1.startPendingAndroidActionIfReady
  split
  · rename_i heq
    rw [heq] at handroid
    exact handroid
  rename_i s₂ heq
  rw [heq] at handroid
  refine handroid.trans (handroid.1.follows ?_)
  have hprivilege : Quiet s₂ (s₂.maybeStartPrivilegeBackendRefresh u uuid).1 :=
    handroid.1.maybeStartPrivilegeBackendRefresh
  split
  · rename_i heq
    rw [heq] at hprivilege
    exact hprivilege
  rename_i s₃ heq
  rw [heq] at hprivilege
  refine handroid.1.andThen hprivilege fun h₃ => ?_
  split_ifs
  · have hflag : Quiet s₃ { s₃ with androidStorageRefreshPending := false } := h₃.marks rfl rfl rfl rfl
    exact h₃.andThen hflag (·.refreshAndroidStorageRoots)
  · have hflag : Quiet s₃ { s₃ with androidRefreshPending := false } := h₃.marks rfl rfl rfl rfl
    exact h₃.andThen hflag (·.refreshAndroid)
  · exact h₃.quiet_refl

theorem Inv.androidStorageRefreshFinished (h : Inv u s) {held : HeldToken π}
    (hcreated : held.token ∈ s.operations.created) :
    Follows u none s (s.androidStorageRefreshFinished u uuid held) := by
  rw [FileManagerPage.androidStorageRefreshFinished]
  have hfinish := h.finish hcreated
  split_ifs
  · have hrelease := h.andThen hfinish (·.releaseStorage)
    exact (h.follows hrelease).trans (h.quiet hrelease).listingFinished
  · exact h.follows hfinish

theorem Inv.androidRefreshFinished (h : Inv u s) {held : HeldToken π}
    (hcreated : held.token ∈ s.operations.created) :
    Follows u none s (s.androidRefreshFinished u uuid held) := by
  rw [FileManagerPage.androidRefreshFinished]
  have hfinish := h.finish hcreated
  split_ifs
  · have hrelease := h.andThen hfinish (·.releaseListing)
    exact (h.follows hrelease).trans (h.quiet hrelease).listingFinished
  · exact h.follows hfinish

/-- What an event may do, whatever happens to the manager. -/
structure After (u : UnicodeData) (s t : FileManagerPage τ π) : Prop where
  ledger : Ledger.Later none s.ledger t.ledger
  closing : s.workersShuttingDown = true → t.workersShuttingDown = true
  handed : ∀ h ∈ t.handed, h ∈ s.handed ∨
    s.isContextCurrent u h.request.deviceContext = true ∧ s.workersShuttingDown = false

theorem Follows.after (h : Follows u none s t) : Inv u t ∧ After u s t :=
  ⟨h.1, h.2.ledger, fun hclosing => h.2.workersShuttingDown.trans hclosing, h.2.handed⟩

theorem Inv.after (h : Inv u s) (hq : Quiet s t) : Inv u t ∧ After u s t :=
  Follows.after (h.follows hq)

omit [DecidableEq π] in
theorem Inv.confirm (h : Inv u s) (request : Request π) : Inv u (s.confirm request) where
  ledger := by
    rw [confirm_ledger]
    exact h.ledger.arrive
  waiting r hr := getElem?_confirm (h.waiting r hr)
  handed i hi := ⟨getElem?_confirm (h.handed i hi).1, (h.handed i hi).2⟩
  registry := h.registry
  held := h.held
  created := h.created
  exclusive := h.exclusive
  tokens := h.tokens
  closing := h.closing

/-- A handler that the user starts by confirming a request. -/
theorem Inv.confirmed (h : Inv u s) {request : Request π} (hid : request.id = s.confirmed.length)
    (hstart : Inv u (s.confirm request) → (s.confirm request).ledger.Dead request.id →
      (s.confirm request).confirmed[request.id]? = some request →
      Follows u (some request.id) (s.confirm request) t) : Inv u t ∧ After u s t := by
  have hdead : (s.confirm request).ledger.Dead request.id := by
    rw [confirm_ledger, hid]
    exact h.ledger.dead_arrived
  have hmem : (s.confirm request).confirmed[request.id]? = some request := by
    rw [hid, FileManagerPage.confirm]
    exact List.getElem?_concat_length
  obtain ⟨hinv, hlater⟩ := hstart (h.confirm request) hdead hmem
  refine ⟨hinv, ?_, fun hclosing => hlater.workersShuttingDown.trans hclosing, hlater.handed⟩
  have hledger := hlater.ledger
  rw [confirm_ledger, hid] at hledger
  exact ((Ledger.later_arrive s.ledger).exempting _ |>.trans hledger).of_fresh

theorem Inv.device (h : Inv u s) (manager : DeviceManager τ π) :
    Inv u { s with deviceManager := manager } ∧ After u s { s with deviceManager := manager } :=
  ⟨⟨h.ledger, h.waiting, h.handed, h.registry, h.held, h.created, h.exclusive, h.tokens, h.closing⟩,
    .refl _ _, id, fun _ => .inl⟩

variable [DecidableEq τ]

theorem Inv.operations (h : Inv u s) {operations : OperationRegistry τ} {a : OperationRegistry.Action τ}
    (hstep : s.operations.step u a = some operations) (closing : Bool)
    (hclosing : closing = true → s.workersShuttingDown = true ∨ operations.shuttingDown = true)
    (hkeeps : s.workersShuttingDown = true → closing = true) :
    Inv u { s with workersShuttingDown := closing, operations := operations } ∧
      After u s { s with workersShuttingDown := closing, operations := operations } := by
  obtain ⟨hregistry, hlater⟩ := h.registry.step hstep
  refine ⟨⟨h.ledger, h.waiting, h.handed, hregistry, fun held hholds => ?_, fun i hi => ?_, h.exclusive, h.tokens,
    fun hshutting => ?_⟩, .refl _ _, hkeeps, fun _ => .inl⟩
  · exact hlater.created _ (h.held held hholds)
  · exact hlater.created _ (h.created i hi)
  · obtain hpage | hregistry := hclosing hshutting
    · exact OperationRegistry.step_shuttingDown hstep (h.closing hpage)
    · exact hregistry

theorem Inv.step (h : Inv u s) {e : Event τ π} (hstep : step u uuid s e = some t) :
    Inv u t ∧ After u s t := by
  cases e with
  | startOrDeferTransfer plan title =>
    cases hstep
    exact h.confirmed rfl fun hinv hdead hmem => hinv.startOrDeferTransfer hdead hmem
  | startAndroid request title ownerKey conflictGroup =>
    cases hstep
    exact h.confirmed rfl fun hinv hdead hmem => hinv.startAndroid hdead hmem
  | refreshAndroidStorageRoots =>
    cases hstep
    exact h.after h.refreshAndroidStorageRoots
  | refreshAndroid =>
    cases hstep
    exact h.after h.refreshAndroid
  | refreshAll =>
    cases hstep
    exact h.after h.refreshAll
  | navigateAndroid path reloaded =>
    cases hstep
    exact h.after (h.navigateAndroid path reloaded)
  | androidItemsLoaded held path =>
    cases hstep
    exact h.after (h.androidItemsLoaded held path)
  | androidStorageRootsLoaded held =>
    cases hstep
    exact h.after (h.androidStorageRootsLoaded held)
  | androidRefreshFinished held =>
    obtain ⟨hcreated, rfl⟩ := ended_eq hstep
    exact (h.androidRefreshFinished hcreated).after
  | androidStorageRefreshFinished held =>
    obtain ⟨hcreated, rfl⟩ := ended_eq hstep
    exact (h.androidStorageRefreshFinished hcreated).after
  | transferWorkerFinished held refresh =>
    obtain ⟨hcreated, rfl⟩ := ended_eq hstep
    exact h.after (h.transferWorkerFinished hcreated refresh)
  | androidFinished held refresh =>
    obtain ⟨hcreated, rfl⟩ := ended_eq hstep
    exact h.after (h.androidFinished hcreated refresh)
  | checkRootAvailability =>
    cases hstep
    exact h.after h.checkRootAvailability
  | rootCheckFinished held =>
    obtain ⟨hcreated, rfl⟩ := ended_eq hstep
    exact h.after (h.rootCheckFinished hcreated)
  | invalidateStaleDeviceView =>
    cases hstep
    exact h.after h.invalidateStaleDeviceView
  | invalidatePrivilegeBackendView =>
    cases hstep
    have hcancel := h.andThen (h.cancelPendingTransferStart true) (·.cancelPendingAndroidAction)
    exact h.after (hcancel.trans h.invalidatePrivilegeBackendView)
  | requestPrivilegeBackendRefresh =>
    cases hstep
    exact h.after h.requestPrivilegeBackendRefresh
  | closeEvent thread =>
    obtain ⟨operations, hoperations, rfl⟩ := Option.map_eq_some_iff.mp hstep
    refine h.operations hoperations true (fun _ => .inr ?_) fun _ => rfl
    rw [OperationRegistry.step] at hoperations
    split_ifs at hoperations
    cases hoperations
    rfl
  | cancelActiveTransfers =>
    cases hstep
    have hcancel := h.andThen h.cancelPendingAndroidAction (·.cancelPendingTransferStart false)
    exact h.after (hcancel.trans h.cancelActiveTransfers)
  | setShellBackendAvailable available =>
    cases hstep
    exact h.after (h.marks rfl rfl rfl rfl)
  | reloadFromSettings path =>
    cases hstep
    exact h.after (h.marks rfl rfl rfl rfl)
  | device a =>
    obtain ⟨manager, _, rfl⟩ := Option.map_eq_some_iff.mp hstep
    exact h.device manager
  | registry a =>
    obtain ⟨operations, hoperations, rfl⟩ := Option.map_eq_some_iff.mp hstep
    exact h.operations hoperations s.workersShuttingDown .inl id

theorem Inv.of_exec (h : Inv u s) {es : List (Event τ π)}
    (hrun : exec (FileManagerPage.step u uuid) s es = some t) : Inv u t :=
  exec_keeps (Inv u) (fun _ _ _ hs hstep => (hs.step hstep).1) h hrun

theorem Inv.dead_of_exec (h : Inv u s) {i : Nat} (hdead : s.ledger.Dead i) {es : List (Event τ π)}
    (hrun : exec (FileManagerPage.step u uuid) s es = some t) : t.ledger.Dead i :=
  (exec_keeps (fun s => Inv u s ∧ s.ledger.Dead i)
    (fun _ _ _ hs hstep => ⟨(hs.1.step hstep).1, (hs.1.step hstep).2.ledger.dead i nofun hs.2⟩) ⟨h, hdead⟩ hrun).2

/-- A page that shuts down starts no worker any more. -/
theorem Inv.closed_exec (h : Inv u s) (hclosing : s.workersShuttingDown = true) {es : List (Event τ π)}
    (hrun : exec (FileManagerPage.step u uuid) s es = some t) : ∀ i ∈ t.handed, i ∈ s.handed := by
  refine (exec_keeps (fun r => Inv u r ∧ r.workersShuttingDown = true ∧ ∀ i ∈ r.handed, i ∈ s.handed)
    (fun r e r' hr hstep => ?_) ⟨h, hclosing, fun _ => id⟩ hrun).2.2
  obtain ⟨hinv, hafter⟩ := hr.1.step hstep
  refine ⟨hinv, hafter.closing hr.2.1, fun i hi => ?_⟩
  obtain hi | ⟨_, hrunning⟩ := hafter.handed i hi
  · exact hr.2.2 i hi
  · rw [hr.2.1] at hrunning
    cases hrunning

/-- The events that drop a waiting request. -/
def Event.discards : Event τ π → Request π → Bool
  | .invalidatePrivilegeBackendView, request => !request.isP2p
  | .cancelActiveTransfers, _ => true
  | _, _ => false

theorem Inv.dead_discarded (h : Inv u s) {e : Event τ π} (hstep : FileManagerPage.step u uuid s e = some t) {q : Request π}
    (hmem : q ∈ s.waiting) (hdiscards : e.discards q = true) : t.ledger.Dead q.id := by
  cases e
  case invalidatePrivilegeBackendView =>
    cases hstep
    have hcancel := h.andThen (h.cancelPendingTransferStart true) (·.cancelPendingAndroidAction)
    have hdead := h.dead_gone hcancel hmem fun hleft => ?_
    · exact h.invalidatePrivilegeBackendView.later (u := u) |>.ledger.dead _ nofun hdead
    · have hp2p := waiting_of_invalidated hleft
      rw [Event.discards, hp2p] at hdiscards
      cases hdiscards
  case cancelActiveTransfers =>
    cases hstep
    have hcancel := h.andThen h.cancelPendingAndroidAction (·.cancelPendingTransferStart false)
    have hdead := h.dead_gone hcancel hmem waiting_of_cancelled
    exact h.cancelActiveTransfers.later (u := u) |>.ledger.dead _ nofun hdead
  all_goals cases hdiscards

/-- What holds in every state: a request is handed over at most once and as it was confirmed, and no
two exclusive requests of one device have live tokens. -/
structure Settled (s : FileManagerPage τ π) : Prop where
  once : (s.handed.map (·.request.id)).Nodup
  confirmed : ∀ h ∈ s.handed, s.confirmed[h.request.id]? = some h.request ∧ h ∈ s.issued
  alone : ∀ a ∈ s.issued, ∀ b ∈ s.issued, a.request.exclusive = true → b.request.exclusive = true →
    a.token ∈ s.operations.tokens → b.token ∈ s.operations.tokens →
      a.request.deviceContext.serial = b.request.deviceContext.serial → a = b

omit [DecidableEq τ] [DecidableEq π] in
theorem Inv.settled (h : Inv u s) : Settled s where
  once := h.ledger.nodup.of_append_right
  confirmed := h.handed
  alone a ha b hb hexclusive hexclusive' hlive hlive' hserial := by
    have htoken : a.token = b.token := by
      by_contra hne
      have hapart := (h.registry.registered.apart.forall hlive hlive' hne).2
      have hgroup := h.exclusive b hb hexclusive'
      rw [← hserial] at hgroup
      exact Finset.disjoint_left.mp hapart (h.exclusive a ha hexclusive) hgroup
    exact List.inj_on_of_nodup_map h.tokens ha hb htoken

/-- A request that waits when an event discards it is never handed over, and a worker is started
only for the present device of a page that does not shut down. -/
theorem requests_settled {supported : Bool} {serial kind : Text} {paths : ProfilePaths π} {path : Text}
    {before : List (Event τ π)}
    (hs : exec (step u uuid) (init u supported serial kind paths path) before = some s) :
    Settled s ∧
      (∀ e t, step u uuid s e = some t → ∀ h ∈ t.handed, h ∈ s.handed ∨
        s.isContextCurrent u h.request.deviceContext = true ∧ s.workersShuttingDown = false) ∧
      (∀ e r after t, step u uuid s e = some r → exec (step u uuid) r after = some t →
        ∀ q ∈ s.waiting, e.discards q = true → ∀ h ∈ t.handed, h.request.id ≠ q.id) ∧
      (s.workersShuttingDown = true → ∀ after t, exec (step u uuid) s after = some t →
        ∀ h ∈ t.handed, h ∈ s.handed) := by
  have hinv : Inv u s := (Inv.init supported serial kind paths path).of_exec hs
  refine ⟨hinv.settled, fun e t hstep => (hinv.step hstep).2.handed, fun e r after t hstep hrun q hq hdiscards h hh heq => ?_,
    fun hclosing after t hrun => hinv.closed_exec hclosing hrun⟩
  have hdead := (hinv.step hstep).1.dead_of_exec (hinv.dead_discarded hstep hq hdiscards) hrun
  exact hdead.2 (List.mem_append_right _ (heq ▸ List.mem_map_of_mem hh))

def recoveryContext : DeviceContext Nat :=
  ⟨['a'], recoveryMode, [], ['a'], ['P', 'h', 'o', 'n', 'e'], ⟨0, 0, 0, 0⟩, 1⟩

def recoveryListing : HeldToken Nat where
  token := OperationRegistry.newToken .ascii (OperationRegistry.new : OperationRegistry Nat)
    (registerArguments listingOwner listingOwner none false recoveryContext) ['a']
  deviceContext := recoveryContext

/-- A transfer is confirmed while the folder is being listed, and starts when the listing ends. -/
def recoveryRun : List (Event Nat Nat) :=
  [.device (.refresh 0), .device (.lists 0 [{ serial := ['a'], mode := recoveryMode }] []),
    .device (.selects 0), .device (.commits 0), .refreshAndroid,
    .startOrDeferTransfer ⟨.push, .adb, recoveryContext, fun h => nomatch h.1⟩ [],
    .registry (.finish recoveryListing.token), .androidRefreshFinished recoveryListing]

theorem requests_settled_recovery : ∃ s : FileManagerPage Nat Nat, s.handed.length = 1 ∧ Settled s := by
  have hrun : (exec (step .ascii fun n => [Char.ofNat (97 + n)])
      (init .ascii false [] [] ⟨0, 0, 0, 0⟩ []) recoveryRun).map (fun s => s.handed.length) = some 1 := by
    decide +kernel
  obtain ⟨s, hs, hlength⟩ := Option.map_eq_some_iff.mp hrun
  exact ⟨s, hlength, (requests_settled hs).1⟩

end FileManagerPage

end OpenAdb.Files.Requests
