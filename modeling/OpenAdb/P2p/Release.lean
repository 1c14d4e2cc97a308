import OpenAdb.P2p.Response
import OpenAdb.P2p.Tunnels

namespace OpenAdb.P2p.Release

open OpenAdb.Lib.PyText OpenAdb.Lib.Effects
open OpenAdb.Acbridge.Device (RequestId)
open OpenAdb.Commands.Results (CommandResult)
open OpenAdb.P2p.Entry (P2PEntry)
open OpenAdb.P2p.Session OpenAdb.P2p.Forwards OpenAdb.P2p.Tunnels

section Calls

variable {w : World} {handles : Text → Option Handle} {request_id : Text}

/-- The forward is held with whatever channel the handle has, and no other is open. -/
def Kept (w : World) (handles : Text → Option Handle) (request_id : Text) (v : View) : Prop :=
  ∃ port attached, Holding w handles request_id port attached attached v

/-- Where the handlers of the preparation start from. -/
def Broken (w : World) (handles : Text → Option Handle) (request_id : Text) (v : View) : Prop :=
  (Untouched handles v ∨ Missed w handles v ∨ Unread w handles v) ∨ Kept w handles request_id v

theorem openTunnel_meets {request_id : RequestId} {bootstrap_secret request_text : Text}
    (hfresh : handles request_id.text = none) :
    Meets (fun p => Untouched handles (view p)) (openTunnel w request_id.text bootstrap_secret request_text)
      (fun _ p => Kept w handles request_id.text (view p))
      (fun _ p => Broken w handles request_id.text (view p)) := by
  refine Meets.bind ((keeps_checkCancelled.meets (Untouched handles)).weaken fun _ _ h => .inl (.inl h)) fun _ => ?_
  refine Meets.bind ((forwardPort_meets hfresh).weaken fun _ _ h => .inl (.inr h)) fun port => ?_
  refine Meets.bind (recordHandle_meets.weaken fun _ _ h => h.elim) fun _ => ?_
  refine Meets.bind ((keeps_checkCancelled.meets (Holding w handles request_id.text port none none)).weaken
    fun _ _ h => .inr ⟨port, none, h⟩) fun _ => ?_
  refine Meets.bind (startService_meets.weaken fun _ _ h => .inr ⟨port, none, h⟩) fun _ => ?_
  refine Meets.bind (connectControlChannel_meets.weaken fun _ _ h => .inr ⟨port, none, h⟩) fun channel => ?_
  have hchange : ∀ s, ∃ s', { (⟨port, none, s⟩ : Handle) with channel := some channel } = ⟨port, some channel, s'⟩ :=
    fun s => ⟨s, rfl⟩
  exact (changeHandle_meets hchange).mono (fun _ h => h) (fun _ _ h => ⟨port, some channel, h⟩) fun _ _ h => h

/-- The wait for the session changes nothing, and the session it finds is the one it waited for. -/
theorem awaitReady_meets {bootstrap_secret destination host : Text} (R : View → Prop) (channel turns : Nat)
    (permission_requested : Bool) :
    Meets (fun p => R (view p))
      (awaitReady w request_id bootstrap_secret destination host channel turns permission_requested)
      (fun session p => R (view p) ∧ ∀ s ∈ session, s.session_id = request_id) (fun _ p => R (view p)) := by
  have hnone {p : Process} (h : R (view p)) :
      R (view p) ∧ ∀ s ∈ (none : Option P2PSession), s.session_id = request_id := ⟨h, fun s hs => by cases hs⟩
  induction turns generalizing permission_requested with
  | zero => exact Meets.pure fun _ h => hnone h
  | succ turns ih =>
    refine Meets.bind (keeps_checkCancelled.meets R) fun _ => ?_
    refine Meets.bind ((keeps_readStatus channel).meets R) fun line => ?_
    cases line with
    | none => exact Meets.pure fun _ h => hnone h
    | some line =>
      refine Meets.bind (keeps_checkCancelled.meets R) fun _ => ?_
      refine Meets.ite (fun _ => ?_) fun _ => Meets.ite (fun _ => ?_) fun _ => Meets.ite (fun _ => ?_) fun _ => ?_
      · exact Meets.bind (Q := fun _ p => R (view p)) (Meets.update fun _ h => h) fun _ => Meets.raise fun _ h => h
      · refine Meets.ite (fun _ => ih true) fun _ => ?_
        exact Meets.bind ((keeps_requestPermission destination).meets R) fun _ => ih true
      · refine Meets.bind ((Keeps.lift _).meets R) fun ready => ?_
        refine Meets.bind (keeps_checkCancelled.meets R) fun _ => Meets.pure fun p h => ⟨h, fun s hs => ?_⟩
        rw [← Option.some.inj hs]
      · exact ih permission_requested

theorem awaitSession_meets {bootstrap_secret destination host : Text} (R : View → Prop) :
    Meets (fun p => R (view p)) (awaitSession w request_id bootstrap_secret destination host)
      (fun session p => R (view p) ∧ ∀ s ∈ session, s.session_id = request_id) (fun _ p => R (view p)) := by
  refine Meets.bind ((Keeps.read _).meets R) fun handle => ?_
  cases handle.bind Handle.channel with
  | none => exact Meets.raise fun _ h => h
  | some channel =>
    exact Meets.bind ((Keeps.read _).meets R) fun turns => awaitReady_meets R channel turns false

theorem cleanup_kept (hfresh : handles request_id = none) (hlength : request_id.length = 32)
    (signal_cancel : Bool) :
    Meets (fun p => Kept w handles request_id (view p)) (cleanupSessionFilesSafely w request_id signal_cancel)
      (fun _ p => Done w handles (view p)) (fun _ _ => False) := by
  refine Meets.of_exists fun port => Meets.of_exists fun attached => ?_
  exact (cleanupSessionFilesSafely_meets hfresh hlength signal_cancel).mono (fun _ h => h)
    (fun _ _ h => .inr (.inr (.inr ⟨request_id, port, h⟩))) fun _ _ h => h

theorem cleanup_broken (hfresh : handles request_id = none) (hlength : request_id.length = 32)
    (signal_cancel : Bool) :
    Meets (fun p => Broken w handles request_id (view p)) (cleanupSessionFilesSafely w request_id signal_cancel)
      (fun _ p => Done w handles (view p)) (fun _ _ => False) := by
  refine Meets.or ?_ (cleanup_kept hfresh hlength signal_cancel)
  have hhandles : ∀ v, Untouched handles v ∨ Missed w handles v ∨ Unread w handles v →
      v.handles request_id = none := by
    intro v hv
    have heq : v.handles = handles := by
      obtain h | h | h := hv
      · exact h.1
      · obtain ⟨_, _, _, h, -⟩ := h
        exact h
      · obtain ⟨_, _, h, -⟩ := h
        exact h.1
    rw [heq]
    exact hfresh
  refine (cleanupSessionFilesSafely_absent hhandles signal_cancel).mono (fun _ h => h) (fun _ _ h => ?_)
    fun _ _ h => h
  obtain h | h | h := h
  · exact .inl h
  · exact .inr (.inl h)
  · exact .inr (.inr (.inl h))

theorem length_requestId (request_id : RequestId) : request_id.text.length = 32 := by
  have hvalid := request_id.valid
  rw [OpenAdb.Acbridge.Device.isRequestId, Bool.and_eq_true, decide_eq_true_eq] at hvalid
  exact hvalid.1

theorem newRequestId_meets (attempts : Nat) :
    Meets (fun p => Untouched handles (view p)) (newRequestId w attempts)
      (fun request_id p => handles request_id.text = none ∧ Untouched handles (view p))
      (fun _ p => Untouched handles (view p)) := by
  induction attempts with
  | zero => exact Meets.raise fun _ h => h
  | succ attempts ih =>
    refine Meets.bind (Q := fun _ p => Untouched handles (view p)) (fun p hp => hp) fun request_id => ?_
    refine Meets.bind (Q := fun entry p => entry = handles request_id.text ∧ Untouched handles (view p))
      (Meets.read fun p hp => ⟨congrFun hp.1 _, hp⟩) fun entry => ?_
    cases entry with
    | none => exact Meets.pure fun _ h => ⟨h.1.symm, h.2⟩
    | some handle => exact ih.mono (fun _ h => h.2) (fun _ _ h => h) fun _ _ h => h

/-- A session comes with its forward held; without one, the call is done. -/
theorem prepareSessionLocked_meets {destination : Text} {timeout_seconds : Int} :
    Meets (fun p => Untouched handles (view p)) (prepareSessionLocked w destination timeout_seconds)
      (fun session p => (handles session.session_id = none ∧ session.session_id.length = 32) ∧
        Kept w handles session.session_id (view p))
      (fun _ p => Done w handles (view p)) := by
  have hbefore {α : Type} {x : Procedure α} (hx : Keeps view x) :
      Meets (fun p => Untouched handles (view p)) x (fun _ p => Untouched handles (view p))
        (fun _ p => Done w handles (view p)) :=
    (hx.meets (Untouched handles)).weaken fun _ _ h => .inl h
  refine Meets.bind (hbefore keeps_checkCancelled) fun _ => ?_
  refine Meets.bind (hbefore (Keeps.lift _)) fun destination => ?_
  refine Meets.bind (hbefore (keeps_asking fun _ _ => rfl)) fun trusted => ?_
  refine Meets.bind (hbefore keeps_checkCancelled) fun _ => ?_
  refine Meets.bind (hbefore (Keeps.require _ _)) fun _ => ?_
  refine Meets.bind (hbefore (keeps_asking fun _ _ => rfl)) fun addresses => ?_
  refine Meets.bind (hbefore keeps_checkCancelled) fun _ => ?_
  cases addresses with
  | nil => exact Meets.raise fun _ h => .inl h
  | cons host addresses =>
    refine Meets.bind ((newRequestId_meets 8).weaken fun _ _ h => .inl h)
      fun request_id => Meets.of_fact fun hfresh => ?_
    have hlength := length_requestId request_id
    refine Meets.bind (hbefore (Keeps.read _)) fun bootstrap_secret => ?_
    refine Meets.bind (Meets.catching (openTunnel_meets hfresh) fun e => ?_) fun _ => ?_
    · refine Meets.bind (Q := fun _ p => Broken w handles request_id.text (view p)) (Meets.read fun _ h => h)
        fun service_started => ?_
      exact Meets.bind ((cleanup_broken hfresh hlength service_started).weaken fun _ _ h => h.elim)
        fun _ => Meets.raise fun _ h => h
    refine Meets.bind (Meets.catching (awaitSession_meets (Kept w handles request_id.text)) fun e => ?_)
      fun session => ?_
    · refine Meets.bind (Q := fun _ p => Kept w handles request_id.text (view p)) (Meets.read fun _ h => h)
        fun signal_cancel => ?_
      exact Meets.bind ((cleanup_kept hfresh hlength signal_cancel).weaken fun _ _ h => h.elim)
        fun _ => Meets.raise fun _ h => h
    cases session with
    | some session =>
      refine Meets.pure fun p h => ?_
      rw [h.2 session rfl]
      exact ⟨⟨hfresh, hlength⟩, h.1⟩
    | none =>
      refine Meets.bind (Q := fun _ p => Kept w handles request_id.text (view p)) (Meets.read fun _ h => h.1)
        fun service_started => ?_
      exact Meets.bind ((cleanup_kept hfresh hlength service_started).weaken fun _ _ h => h.elim)
        fun _ => Meets.raise fun _ h => h

/-- Every end of the call is one of four. -/
theorem uploadEntryBatch_meets {entries : List P2PEntry} {android_destination : Text} {session_timeout : Int} :
    Meets (fun p => Untouched handles (view p)) (uploadEntryBatch w entries android_destination session_timeout)
      (fun _ p => Done w handles (view p)) (fun _ p => Done w handles (view p)) := by
  have hprepare : Meets (fun p => Untouched handles (view p)) (prepareSession w android_destination session_timeout)
      (fun session p => (handles session.session_id = none ∧ session.session_id.length = 32) ∧
        Kept w handles session.session_id (view p))
      (fun _ p => Done w handles (view p)) := by
    refine Meets.bind (Q := fun _ p => Untouched handles (view p)) (Meets.read fun _ h => h) fun waits => ?_
    refine Meets.bind (((keeps_awaitLock waits).meets (Untouched handles)).weaken fun _ _ h => .inl h) fun _ => ?_
    exact Meets.bind ((keeps_checkCancelled.meets (Untouched handles)).weaken fun _ _ h => .inl h)
      fun _ => prepareSessionLocked_meets
  refine Meets.bind hprepare fun session => Meets.of_fact fun hsession => ?_
  have hcleanup : Meets (fun p => Kept w handles session.session_id (view p))
      (do
        disconnect
        let signal_cancel ← read (fun p => !(p.completed || p.remote_terminal))
        cleanupSessionFilesSafely w session.session_id signal_cancel)
      (fun _ p => Done w handles (view p)) (fun _ _ => False) := by
    refine Meets.bind (Q := fun _ p => Kept w handles session.session_id (view p)) ?_ fun _ => ?_
    · exact Meets.bind (Q := fun _ p => Kept w handles session.session_id (view p)) (Meets.read fun _ h => h)
        fun connected => Meets.ite (fun _ => Meets.update fun _ h => h) fun _ => Meets.pure fun _ h => h
    · exact Meets.bind (Q := fun _ p => Kept w handles session.session_id (view p)) (Meets.read fun _ h => h)
        fun signal_cancel => cleanup_kept hsession.1 hsession.2 signal_cancel
  refine Meets.bind (Meets.always (E := fun _ p => Kept w handles session.session_id (view p))
    (Q := fun _ p => Kept w handles session.session_id (view p)) ?_ (fun _ => hcleanup) fun _ => hcleanup)
    fun sent => Meets.pure fun _ h => h
  exact (Keeps.catching (keeps_transferEntries session entries) (keeps_reportFault session.session_id)).meets
    (Kept w handles session.session_id)

end Calls

section Ends

variable {w : World} {handles : Text → Option Handle} {p : Process}

theorem removedAll_nil {local_specs : List Text} : RemovedAll local_specs [] ↔ local_specs = [] := by
  constructor
  · intro h
    obtain h | ⟨-, last, hlast, -⟩ := h
    · exact h.symm
    · cases hlast
  · intro h
    exact .inl h.symm

theorem released_iff_of_untouched (h : Untouched handles (view p)) :
    Released w handles p ↔ NothingToRemove w p.log := by
  obtain ⟨hhandles, hledger⟩ := h
  have hcreated : created p.log = [] := congrArg Ledger.created hledger
  have hports : ports p.log = [] := congrArg Ledger.ports hledger
  have hlistings : listings p.log = [] := congrArg Ledger.listings hledger
  have hremovals : removals p.log = [] := congrArg Ledger.removals hledger
  have hopened : opened p.log = [] := congrArg Ledger.opened hledger
  refine iff_of_true ⟨hhandles, ?_, ?_, ?_⟩ ?_
  · intro request_id reply h
    rw [hcreated] at h
    cases h
  · intro channel h
    rw [hopened] at h
    cases h
  · rw [ForwardReleased, hcreated]
    exact ⟨hports, hremovals, hlistings⟩
  · intro request_id reply h
    rw [hcreated] at h
    cases h

theorem released_iff_of_missed (h : Missed w handles (view p)) :
    Released w handles p ↔ NothingToRemove w p.log := by
  obtain ⟨request_id, reply, listed, hhandles, hfresh, hledger, hport, hread⟩ := h
  have hhandles : p.handles = handles := hhandles
  have hcreated : created p.log = [(request_id, reply)] := congrArg Ledger.created hledger
  have hports : ports p.log = [] := congrArg Ledger.ports hledger
  have hlistings : listings p.log = [listed] := congrArg Ledger.listings hledger
  have hremovals : removals p.log = [] := congrArg Ledger.removals hledger
  have hopened : opened p.log = [] := congrArg Ledger.opened hledger
  have hforward : ForwardReleased w p.log ↔ ∀ result, listed = .ok result → result.success = true →
      localSpecs w.runner.unicode (remoteSpec request_id) result.stdout = [] := by
    simp only [ForwardReleased, hcreated, hport, hports, RemovedBySpec, hlistings, hremovals, List.reverse_nil,
      removedAll_nil, true_and, List.cons.injEq, and_true, exists_eq_left']
  constructor
  · intro h request_id' reply' hmem hnone
    rw [hcreated, List.mem_singleton] at hmem
    obtain ⟨rfl, rfl⟩ := Prod.mk.inj hmem
    refine ⟨hread, fun result hresult => hforward.mp h.forward result ?_⟩
    rw [hlistings, List.mem_singleton] at hresult
    exact hresult.symm
  · intro h
    refine ⟨hhandles, ?_, ?_, hforward.mpr fun result hresult => ?_⟩
    · intro request_id' reply' hmem
      rw [hcreated, List.mem_singleton] at hmem
      obtain ⟨rfl, rfl⟩ := Prod.mk.inj hmem
      rw [hhandles]
      exact hfresh
    · intro channel hchannel
      rw [hopened] at hchannel
      cases hchannel
    · have hmem : (request_id, reply) ∈ created p.log := by
        rw [hcreated]
        exact List.mem_singleton_self _
      refine (h request_id reply hmem hport).2 result ?_
      rw [hlistings, hresult]
      exact List.mem_singleton_self _

theorem released_iff_of_unread (h : Unread w handles (view p)) :
    Released w handles p ↔ NothingToRemove w p.log := by
  obtain ⟨request_id, reply, ⟨-, -, hledger⟩, hread⟩ := h
  have hcreated : created p.log = [(request_id, reply)] := congrArg Ledger.created hledger
  have hlistings : listings p.log = [] := congrArg Ledger.listings hledger
  have hport : tunnelPort w request_id reply = none := by
    obtain ⟨result, rfl, hsuccess, hlong⟩ := hread
    rw [tunnelPort, if_pos hsuccess, parseForwardPort_overlong_iff.mpr hlong]
    rfl
  refine iff_of_false (fun h => ?_) fun h => ?_
  · have hforward := h.forward
    simp only [ForwardReleased, hcreated, hport, RemovedBySpec, hlistings] at hforward
    obtain ⟨-, listed, hlisted, -⟩ := hforward
    cases hlisted
  · refine (h request_id reply ?_ hport).1 hread
    rw [hcreated]
    exact List.mem_singleton_self _

theorem released_iff_of_freed {request_id : Text} {port : Nat} (h : Freed w handles request_id port (view p)) :
    Released w handles p ↔ NothingToRemove w p.log := by
  obtain ⟨reply, hcreated, hport⟩ := h.created
  obtain ⟨last, hremovals⟩ := h.removals
  have hcreated : created p.log = [(request_id, reply)] := hcreated
  have hremovals : removals p.log = [(tcpSpec port, last)] := hremovals
  have hhandles : p.handles = handles := h.handles
  refine iff_of_true ⟨hhandles, ?_, h.channels, ?_⟩ ?_
  · intro request_id' reply' hmem
    rw [hcreated, List.mem_singleton] at hmem
    obtain ⟨rfl, rfl⟩ := Prod.mk.inj hmem
    rw [hhandles]
    exact h.fresh
  · simp only [ForwardReleased, hcreated, hport, hremovals]
    exact ⟨h.ports, rfl, h.listings⟩
  · intro request_id' reply' hmem hnone
    rw [hcreated, List.mem_singleton] at hmem
    obtain ⟨rfl, rfl⟩ := Prod.mk.inj hmem
    rw [hport] at hnone
    cases hnone

theorem released_iff_of_done (h : Done w handles (view p)) : Released w handles p ↔ NothingToRemove w p.log := by
  obtain h | h | h | ⟨request_id, port, h⟩ := h
  · exact released_iff_of_untouched h
  · exact released_iff_of_missed h
  · exact released_iff_of_unread h
  · exact released_iff_of_freed h

theorem uploadEntryBatch_done (w : World) (entries : List P2PEntry) (android_destination : Text)
    (session_timeout : Int) (handles : Text → Option Handle) :
    Done w handles (view (uploadEntryBatch w entries android_destination session_timeout
      (Process.start handles)).2) := by
  have h : Outcome _ _ (uploadEntryBatch w entries android_destination session_timeout (Process.start handles)) :=
    uploadEntryBatch_meets (Process.start handles) ⟨rfl, rfl⟩
  cases hrun : uploadEntryBatch w entries android_destination session_timeout (Process.start handles) with
  | mk r p =>
    rw [hrun] at h
    cases r with
    | ok _ => exact h
    | error _ => exact h

end Ends

/-- A call releases everything unless it has to search for its forward and there is one to find. -/
theorem uploadEntryBatch_released_iff (w : World) (entries : List P2PEntry) (android_destination : Text)
    (session_timeout : Int) (handles : Text → Option Handle) :
    Released w handles (uploadEntryBatch w entries android_destination session_timeout
        (Process.start handles)).2 ↔
      NothingToRemove w (uploadEntryBatch w entries android_destination session_timeout
        (Process.start handles)).2.log :=
  released_iff_of_done (uploadEntryBatch_done w entries android_destination session_timeout handles)

section Sample

theorem mem_sampleOrder (values : List Text) (v : Text) : v ∈ id values ↔ v ∈ values := Iff.rfl

def sampleRunner : OpenAdb.Commands.Scopes.CommandRunner where
  unicode := UnicodeData.ascii
  lower := id
  redactSensitiveText := id
  setOrder := id
  mem_setOrder := mem_sampleOrder
  stack := []
  logsFolder := []

def sampleId : RequestId := ⟨List.replicate 32 'd', by decide⟩

def succeeded (stdout : Text) : CommandResult where
  exitCode := some 0
  stdout := stdout
  stderr := []
  success := true
  status := "Success".toList
  errorType := []

/-- The forward is created without a port in the output, and then listed. -/
def sampleWorld : World where
  isSet _ := false
  lockWaits _ := 0
  trusted _ := .ok (true, [])
  addresses _ := .ok ["192.0.2.10".toList]
  uuid _ := sampleId
  secret _ := OpenAdb.P2p.Bootstrap.sampleSecret
  adb _
    | .createForward _ => .ok (succeeded "unexpected dynamic-forward response".toList)
    | .listForwards => .ok (succeeded ("device-1 tcp:43130 ".toList ++ remoteSpec sampleId.text ++ ['\n']))
    | _ => .ok (succeeded [])
  turns _ := 1
  dial _ := .ok ()
  configure _ := .ok ()
  closeSocket _ := .ok ()
  write _ _ _ := .ok ()
  line _ _ := .ok []
  grant _ _ := .ok (succeeded [])
  emit _ := .ok ()
  connect _ _ := .ok ()
  transfer _ _ _ := .ok ([], 0, 0)
  crypto := OpenAdb.P2p.Response.Crypto.constant
  runner := sampleRunner
  harmless _ _ h := h

def sampleEnd : Process := (uploadEntryBatch sampleWorld [] "/sdcard".toList 120 (Process.start fun _ => none)).2

def shows (request_id : Text) : Reply → Bool
  | .ok result => result.success && !(localSpecs UnicodeData.ascii (remoteSpec request_id) result.stdout).isEmpty
  | .error _ => false

/-- adb lists the forward, and nobody removes it. -/
theorem listed_forward_stays : ¬∀ (w : World) (entries : List P2PEntry) (android_destination : Text)
    (session_timeout : Int) (handles : Text → Option Handle),
    Released w handles (uploadEntryBatch w entries android_destination session_timeout
      (Process.start handles)).2 := by
  intro h
  have hforward : ForwardReleased sampleWorld sampleEnd.log :=
    (h sampleWorld [] "/sdcard".toList 120 fun _ => none).forward
  have hids : (created sampleEnd.log).map Prod.fst = [sampleId.text] := by decide +kernel
  have hports : ((created sampleEnd.log).all fun c => (tunnelPort sampleWorld c.1 c.2).isNone) = true := by
    decide +kernel
  have hlisted : (listings sampleEnd.log).any (shows sampleId.text) = true := by decide +kernel
  have hremovals : removals sampleEnd.log = [] := List.length_eq_zero_iff.mp (by decide +kernel)
  obtain ⟨first, hcreated, hfirst⟩ := List.map_eq_singleton_iff.mp hids
  obtain ⟨request_id, reply⟩ := first
  have hid : request_id = sampleId.text := hfirst
  subst hid
  rw [hcreated, List.all_cons, Bool.and_eq_true, Option.isNone_iff_eq_none] at hports
  simp only [ForwardReleased, hcreated, hports.1, RemovedBySpec, hremovals, List.reverse_nil, removedAll_nil]
    at hforward
  obtain ⟨-, listed, hlistings, hspecs⟩ := hforward
  rw [hlistings, List.any_cons, List.any_nil, Bool.or_false] at hlisted
  cases listed with
  | error e => cases hlisted
  | ok result =>
    rw [shows, Bool.and_eq_true, Bool.not_eq_true', List.isEmpty_eq_false_iff] at hlisted
    exact hlisted.2 (hspecs result rfl hlisted.1)

end Sample

end OpenAdb.P2p.Release
