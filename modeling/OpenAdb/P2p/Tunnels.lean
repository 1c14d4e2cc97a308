import OpenAdb.P2p.Forwards

namespace OpenAdb.P2p.Tunnels

open OpenAdb.Lib.PyText OpenAdb.Lib.Encoding OpenAdb.Lib.Effects
open OpenAdb.Acbridge.Device (RequestId)
open OpenAdb.Commands.Results (CommandResult)
open OpenAdb.P2p.Entry (P2PEntry)
open OpenAdb.P2p.Session OpenAdb.P2p.Forwards

/-- What the log says about forwards and channels. -/
structure Ledger where
  created : List (Text × Reply)
  ports : List Nat
  listings : List Reply
  removals : List (Text × Reply)
  opened : List Nat
  closed : List Nat

def ledger (log : Log) : Ledger :=
  ⟨created log, ports log, listings log, removals log, opened log, closed log⟩

/-- What there is to release, and what has been. -/
structure View where
  ledger : Ledger
  handles : Text → Option Handle
  handle : Option Handle
  channel : Option Nat

def view (p : Process) : View := ⟨ledger p.log, p.handles, p.handle, p.channel⟩

section Neutral

variable {w : World} {α : Type}

theorem keeps_asking {answer : Log → Except Fault α} {event : Except Fault α → Event}
    (h : ∀ r log, ledger (event r :: log) = ledger log) : Keeps view (asking answer event) := by
  intro p
  change View.mk (ledger (event (answer p.log) :: p.log)) p.handles p.handle p.channel = view p
  rw [h]
  rfl

theorem keeps_isCancelled : Keeps view (isCancelled w) := fun _ => rfl

theorem keeps_checkCancelled : Keeps view (checkCancelled w) :=
  keeps_isCancelled.bind fun _ => .require _ _

theorem keeps_emit : Keeps view (emit w) := keeps_asking fun _ _ => rfl

theorem keeps_readLine (channel : Nat) : Keeps view (readLine w channel) := keeps_asking fun _ _ => rfl

theorem keeps_runAdb {operation : String} {session_id : Text} {call : AdbCall}
    (h : ∀ reply log, ledger (.adb call reply :: log) = ledger log) :
    Keeps view (runAdb w operation session_id call) :=
  (keeps_asking h).bind fun _ => .pure _

theorem keeps_sessionErrorFrom (session_id : Text) (channel turns : Nat) :
    Keeps view (sessionErrorFrom w session_id channel turns) := by
  induction turns with
  | zero => exact .pure _
  | succ turns ih =>
    refine keeps_isCancelled.bind fun set => .ite (.pure _) ?_
    refine (keeps_readLine channel).bind fun status => .ite (.pure _) ?_
    exact .ite (.pure _) ih

theorem keeps_fetchSessionErrorSafely (session_id : Text) : Keeps view (fetchSessionErrorSafely w session_id) := by
  refine .catching ?_ fun _ => .pure _
  refine keeps_isCancelled.bind fun set => .ite (.pure _) ?_
  refine (Keeps.read _).bind fun entry => ?_
  cases entry.bind Handle.channel with
  | none => exact .pure _
  | some channel => exact (Keeps.read _).bind fun turns => keeps_sessionErrorFrom session_id channel turns

theorem keeps_readStatus (channel : Nat) : Keeps view (readStatus w channel) := by
  refine .catching ((keeps_readLine channel).bind fun _ => .pure _) fun e => ?_
  cases e with
  | timeout => exact .pure _
  | transfer => exact .raise _
  | os => exact .raise _
  | eof => exact .raise _
  | value => exact .raise _
  | other => exact .raise _

theorem keeps_requestPermission (destination : Text) : Keeps view (requestPermission w destination) := by
  refine keeps_emit.bind fun _ => (keeps_asking fun _ _ => rfl).bind fun grant => ?_
  exact keeps_checkCancelled.bind fun _ => (Keeps.require _ _).bind fun _ => keeps_emit

theorem keeps_transferEntries (session : P2PSession) (entries : List P2PEntry) :
    Keeps view (transferEntries w session entries) := by
  refine (keeps_asking fun _ _ => rfl).bind fun _ => .bind (.update fun _ => rfl) fun _ => ?_
  exact (keeps_asking fun _ _ => rfl).bind fun sent => .bind (.update fun _ => rfl) fun _ => .pure _

theorem keeps_reportFault (session_id : Text) (e : Fault) : Keeps view (reportFault w session_id e) := by
  have hnetwork (message : Text → Fault) :
      Keeps view (do
        let remote_error ← fetchSessionErrorSafely w session_id
        update fun p => { p with remote_terminal := !remote_error.isEmpty }
        raise (message remote_error) : Procedure (Text × Nat × Nat)) :=
    (keeps_fetchSessionErrorSafely session_id).bind fun _ => .bind (.update fun _ => rfl) fun _ => .raise _
  cases e with
  | transfer message =>
    refine .ite (.raise _) ((keeps_fetchSessionErrorSafely session_id).bind fun remote_error => ?_)
    exact .ite (.raise _) (.bind (.update fun _ => rfl) fun _ => .raise _)
  | other => exact .raise _
  | timeout => exact hnetwork _
  | os => exact hnetwork _
  | eof => exact hnetwork _
  | value => exact hnetwork _

theorem keeps_awaitLock (waits : Nat) : Keeps view (awaitLock w waits) := by
  induction waits with
  | zero => exact .pure _
  | succ waits ih => exact keeps_checkCancelled.bind fun _ => ih

end Neutral

section Phases

variable (w : World) (handles : Text → Option Handle)

def Untouched (v : View) : Prop := v.handles = handles ∧ v.ledger = ⟨[], [], [], [], [], []⟩

def Created (request_id : Text) (reply : Reply) (v : View) : Prop :=
  v.handles = handles ∧ handles request_id = none ∧ v.ledger = ⟨[(request_id, reply)], [], [], [], [], []⟩

/-- The forward command gave no port, and the search for the forward has found nothing. -/
def Missed (v : View) : Prop :=
  ∃ request_id reply listed, v.handles = handles ∧ handles request_id = none ∧
    v.ledger = ⟨[(request_id, reply)], [], [listed], [], [], []⟩ ∧
    tunnelPort w request_id reply = none ∧ ¬Unreadable w request_id reply

/-- The reader of the port has raised, and nobody has searched. -/
def Unread (v : View) : Prop :=
  ∃ request_id reply, Created handles request_id reply v ∧ Unreadable w request_id reply

/-- The forward is recorded and not removed; `spare` is the one channel that may be open. -/
structure Tunnel (request_id : Text) (port : Nat) (spare : Option Nat) (v : View) : Prop where
  created : ∃ reply, v.ledger.created = [(request_id, reply)] ∧ tunnelPort w request_id reply = some port
  ports : v.ledger.ports = [port]
  listings : v.ledger.listings = []
  removals : v.ledger.removals = []
  channels : ∀ channel ∈ v.ledger.opened, channel ∈ v.ledger.closed ∨ spare = some channel

/-- The handle of the forward is in the table, with the channel `attached`. -/
structure Holding (request_id : Text) (port : Nat) (attached spare : Option Nat) (v : View) : Prop
    extends Tunnel w request_id port spare v where
  handle : ∃ service_started, v.handle = some ⟨port, attached, service_started⟩ ∧
    v.handles = Function.update handles request_id (some ⟨port, attached, service_started⟩)

structure Freed (request_id : Text) (port : Nat) (v : View) : Prop where
  created : ∃ reply, v.ledger.created = [(request_id, reply)] ∧ tunnelPort w request_id reply = some port
  ports : v.ledger.ports = [port]
  listings : v.ledger.listings = []
  removals : ∃ last, v.ledger.removals = [(tcpSpec port, last)]
  channels : ∀ channel ∈ v.ledger.opened, channel ∈ v.ledger.closed
  fresh : handles request_id = none
  handles : v.handles = handles

/-- How a call may end. -/
def Done (v : View) : Prop :=
  Untouched handles v ∨ Missed w handles v ∨ Unread w handles v ∨
    ∃ request_id port, Freed w handles request_id port v

end Phases

section Calls

variable {w : World} {handles : Text → Option Handle} {α : Type} {P : Process → Prop}

theorem asking_meets {answer : Log → Except Fault α} {event : Except Fault α → Event}
    {Q : α → Process → Prop} {E : Fault → Process → Prop}
    (hok : ∀ p a, P p → answer p.log = .ok a → Q a { p with log := event (.ok a) :: p.log })
    (herr : ∀ p e, P p → answer p.log = .error e → E e { p with log := event (.error e) :: p.log }) :
    Meets P (asking answer event) Q E := by
  intro p hp
  have hrun : asking answer event p = (answer p.log, { p with log := event (answer p.log) :: p.log }) := rfl
  rw [hrun]
  cases h : answer p.log with
  | ok a => exact hok p a hp h
  | error e => exact herr p e hp h

theorem runAdb_meets {operation : String} {session_id : Text} {call : AdbCall}
    {Q : CommandResult → Process → Prop} {E : Fault → Process → Prop}
    (hok : ∀ p result, P p →
      Q (scrubbed w operation session_id result) { p with log := .adb call (.ok result) :: p.log })
    (herr : ∀ p e, P p → E e { p with log := .adb call (.error e) :: p.log }) :
    Meets P (runAdb w operation session_id call) Q E := by
  refine Meets.bind (Q := fun result p => Q (scrubbed w operation session_id result) p) ?_ fun result => ?_
  · exact asking_meets (fun p result hp _ => hok p result hp) fun p e hp _ => herr p e hp
  · exact Meets.pure fun _ h => h

/-- The search asks for the list and removes nothing. -/
theorem removeUntracked_meets {request_id : RequestId} {reply : Reply}
    (hport : tunnelPort w request_id.text reply = none) (hread : ¬Unreadable w request_id.text reply) :
    Meets (fun p => Created handles request_id.text reply (view p))
      (removeUntrackedControlForwardSafely w (remoteSpec request_id.text) request_id.text)
      (fun _ p => Missed w handles (view p)) (fun _ _ => False) := by
  have hlisted {p : Process} {listed : Reply} (hp : Created handles request_id.text reply (view p)) :
      Missed w handles (view { p with log := .adb .listForwards listed :: p.log }) := by
    obtain ⟨hhandles, hfresh, hledger⟩ := hp
    refine ⟨request_id.text, reply, listed, hhandles, hfresh, ?_, hport, hread⟩
    change { ledger p.log with listings := listed :: (ledger p.log).listings } = _
    rw [show ledger p.log = _ from hledger]
  refine Meets.catching (E := fun _ p => Missed w handles (view p)) ?_ fun _ => Meets.pure fun _ h => h
  refine Meets.bind (Q := fun listed p => Missed w handles (view p) ∧
      localSpecs w.runner.unicode (remoteSpec request_id.text) listed.stdout = []) ?_ fun listed => ?_
  · refine runAdb_meets (fun p result hp => ?_) fun p e hp => hlisted hp
    exact ⟨hlisted hp, localSpecs_scrubbed w _ request_id result⟩
  · refine Meets.ite (fun _ => Meets.pure fun _ h => h.1) fun _ => ?_
    intro p hp
    rw [hp.2]
    exact hp.1

theorem createForward_meets {request_id : RequestId} {bootstrap_secret : Text}
    (hfresh : handles request_id.text = none) :
    Meets (fun p => Untouched handles (view p)) (createForward w request_id.text bootstrap_secret)
      (fun forwarded p => ∃ result, forwarded = scrubbed w "create control forward" request_id.text result ∧
        Created handles request_id.text (.ok result) (view p))
      (fun _ p => Missed w handles (view p)) := by
  have hcreated {p : Process} {reply : Reply} (hp : Untouched handles (view p)) :
      Created handles request_id.text reply
        (view { p with log := .adb (.createForward request_id.text) reply :: p.log }) := by
    obtain ⟨hhandles, hledger⟩ := hp
    refine ⟨hhandles, hfresh, ?_⟩
    change { ledger p.log with created := (request_id.text, reply) :: (ledger p.log).created } = _
    rw [show ledger p.log = _ from hledger]
  refine Meets.catching (E := fun e p => Created handles request_id.text (.error e) (view p)) ?_ fun e => ?_
  · exact runAdb_meets (fun p result hp => ⟨result, rfl, hcreated hp⟩) fun p e hp => hcreated hp
  · refine Meets.bind ((removeUntracked_meets rfl ?_).weaken fun _ _ h => h.elim) fun _ => Meets.raise fun _ h => h
    intro h
    obtain ⟨result, h, -⟩ := h
    cases h

theorem forwardPort_meets {request_id : RequestId} {bootstrap_secret : Text}
    (hfresh : handles request_id.text = none) :
    Meets (fun p => Untouched handles (view p)) (forwardPort w request_id.text bootstrap_secret)
      (fun port p => ∃ reply, Created handles request_id.text reply (view p) ∧
        tunnelPort w request_id.text reply = some port)
      (fun _ p => Missed w handles (view p) ∨ Unread w handles (view p)) := by
  refine Meets.bind ((createForward_meets hfresh).weaken fun _ _ h => .inl h) fun forwarded => ?_
  refine Meets.of_exists fun result => Meets.of_fact fun hforwarded => ?_
  subst hforwarded
  rw [success_scrubbed]
  have hmissed (hport : tunnelPort w request_id.text (.ok result) = none)
      (hread : ¬Unreadable w request_id.text (.ok result)) :
      Meets (fun p => Created handles request_id.text (.ok result) (view p))
        (removeUntrackedControlForwardSafely w (remoteSpec request_id.text) request_id.text)
        (fun _ p => Missed w handles (view p))
        (fun _ p => Missed w handles (view p) ∨ Unread w handles (view p)) :=
    (removeUntracked_meets hport hread).weaken fun _ _ h => h.elim
  refine Meets.ite (fun hfailed => ?_) fun hsuccess => ?_
  · refine Meets.bind (hmissed ?_ ?_) fun _ => ?_
    · rw [tunnelPort, hfailed]
      rfl
    · intro h
      obtain ⟨result', h, hsuccess, -⟩ := h
      rw [← Except.ok.inj h, hfailed] at hsuccess
      cases hsuccess
    · exact Meets.bind ((keeps_checkCancelled.meets (Missed w handles)).weaken fun _ _ h => .inl h)
        fun _ => Meets.raise fun _ h => .inl h
  · have hsuccess : result.success = true := Bool.not_eq_false _ ▸ hsuccess
    have hport : tunnelPort w request_id.text (.ok result) =
        (parseForwardPort w.runner.unicode (forwardOutput w request_id.text result)).toOption := by
      rw [tunnelPort, if_pos hsuccess]
    refine Meets.catching (E := fun e p =>
      parseForwardPort w.runner.unicode (forwardOutput w request_id.text result) = .error e ∧
        Created handles request_id.text (.ok result) (view p)) ?_ fun e => Meets.of_fact fun herror => ?_
    · refine Meets.lift (fun port hparse p hp => ⟨.ok result, hp, ?_⟩) fun e hparse p hp => ⟨hparse, hp⟩
      rw [hport, show parseForwardPort _ (forwardOutput w request_id.text result) = _ from hparse]
      rfl
    · rw [herror] at hport
      obtain rfl | rfl := forwardPortFrom_error herror
      · refine Meets.bind (hmissed hport ?_) fun _ => Meets.raise fun _ h => .inl h
        intro h
        obtain ⟨result', h, -, hlong⟩ := h
        rw [← Except.ok.inj h, ← parseForwardPort_overlong_iff, herror] at hlong
        cases hlong
      · refine Meets.raise fun p hp => .inr ⟨request_id.text, .ok result, hp, result, rfl, hsuccess, ?_⟩
        exact parseForwardPort_overlong_iff.mp herror

/-- The exceptions after which an attempt closes what it has opened. -/
def Caught : Fault → Prop
  | .value _ | .other _ => False
  | _ => True

theorem caught_fault (e : ChannelFault) : Caught e.fault := by
  cases e with
  | control e =>
    cases e with
    | transfer => trivial
    | timeout => trivial
    | eof => trivial
  | os => trivial

/-- What a channel does leaves the view, and raises only what the handlers know. -/
theorem channelCall_meets {answer : Log → Except ChannelFault α} {event : Except Fault α → Event}
    (hneutral : ∀ r log, ledger (event r :: log) = ledger log) (R : View → Prop) :
    Meets (fun p => R (view p)) (asking (fun log => (answer log).mapError ChannelFault.fault) event)
      (fun _ p => R (view p)) (fun e p => R (view p) ∧ Caught e) := by
  have hview {p : Process} {r : Except Fault α} (hp : R (view p)) :
      R (view { p with log := event r :: p.log }) := by
    change R ⟨ledger (event r :: p.log), p.handles, p.handle, p.channel⟩
    rw [hneutral]
    exact hp
  refine asking_meets (fun p a hp _ => hview hp) fun p e hp he => ⟨hview hp, ?_⟩
  cases h : answer p.log with
  | ok a =>
    rw [h] at he
    cases he
  | error e' =>
    rw [h] at he
    cases he
    exact caught_fault e'

theorem checkCancelled_meets (R : View → Prop) :
    Meets (fun p => R (view p)) (checkCancelled w) (fun _ p => R (view p)) (fun e p => R (view p) ∧ Caught e) := by
  have hset : Meets (fun p => R (view p)) (isCancelled w) (fun _ p => R (view p))
      (fun e p => R (view p) ∧ Caught e) := fun _ hp => hp
  exact hset.bind fun _ => Meets.require (fun _ _ h => h) fun _ _ h => ⟨h, trivial⟩

variable {request_id : Text} {port : Nat} {attached spare : Option Nat}

/-- The locals of an attempt are no part of what is held. -/
theorem Holding.channel {v : View} (h : Holding w handles request_id port attached spare v) (channel : Option Nat) :
    Holding w handles request_id port attached spare { v with channel := channel } :=
  ⟨⟨h.created, h.ports, h.listings, h.removals, h.channels⟩, h.handle⟩

theorem recordHandle_meets :
    Meets (fun p => ∃ reply, Created handles request_id reply (view p) ∧
        tunnelPort w request_id reply = some port) (recordHandle request_id port)
      (fun _ p => Holding w handles request_id port none none (view p)) (fun _ _ => False) := by
  intro p hp
  obtain ⟨reply, hcreated, hport⟩ := hp
  obtain ⟨hhandles, hfresh, hledger⟩ := hcreated
  have hhandles : p.handles = handles := hhandles
  have hledger : ledger p.log = ⟨[(request_id, reply)], [], [], [], [], []⟩ := hledger
  have hentry : p.handles request_id = none := by
    rw [hhandles]
    exact hfresh
  have hrun : recordHandle request_id port p = (.ok (),
      { p with
        handle := some ⟨port, none, false⟩
        handles := Function.update p.handles request_id (some ⟨port, none, false⟩)
        log := .recorded port :: p.log }) :=
    bind_ok (x := require (p.handles request_id = none) _) (require_pos hentry)
  rw [hrun]
  have hlater : ledger (.recorded port :: p.log) = { ledger p.log with ports := port :: (ledger p.log).ports } := rfl
  refine ⟨⟨⟨reply, ?_, hport⟩, ?_, ?_, ?_, ?_⟩, false, rfl, ?_⟩
  · exact (congrArg Ledger.created hlater).trans (by rw [hledger])
  · exact (congrArg Ledger.ports hlater).trans (by rw [hledger])
  · exact (congrArg Ledger.listings hlater).trans (by rw [hledger])
  · exact (congrArg Ledger.removals hlater).trans (by rw [hledger])
  · intro channel hchannel
    have hopened : opened (.recorded port :: p.log) = [] :=
      (congrArg Ledger.opened hlater).trans (by rw [hledger])
    have hchannel : channel ∈ opened (.recorded port :: p.log) := hchannel
    rw [hopened] at hchannel
    cases hchannel
  · rw [← hhandles]
    rfl

theorem changeHandle_meets {change : Handle → Handle} {attached' : Option Nat} {E : Fault → Process → Prop}
    (hchange : ∀ s, ∃ s', change ⟨port, attached, s⟩ = ⟨port, attached', s'⟩) :
    Meets (fun p => Holding w handles request_id port attached spare (view p)) (changeHandle request_id change)
      (fun _ p => Holding w handles request_id port attached' spare (view p)) E := by
  refine Meets.update fun p hp => ?_
  obtain ⟨s, hhandle, hhandles⟩ := hp.handle
  obtain ⟨s', hs'⟩ := hchange s
  have hhandle : p.handle = _ := hhandle
  have hhandles : p.handles = _ := hhandles
  refine ⟨⟨hp.created, hp.ports, hp.listings, hp.removals, hp.channels⟩, s', ?_, ?_⟩
  · change p.handle.map change = _
    rw [hhandle, Option.map_some, hs']
  · change Function.update p.handles request_id (p.handle.map change) = _
    rw [hhandle, Option.map_some, hs', hhandles, Function.update_idem]

theorem startService_meets {bootstrap_secret : Text} :
    Meets (fun p => Holding w handles request_id port none none (view p))
      (startService w request_id bootstrap_secret)
      (fun _ p => Holding w handles request_id port none none (view p))
      (fun _ p => Holding w handles request_id port none none (view p)) := by
  refine Meets.bind ((keeps_runAdb fun _ _ => rfl).meets _) fun started => ?_
  refine Meets.bind (changeHandle_meets fun s => ⟨started.success, rfl⟩) fun _ => ?_
  refine Meets.bind (keeps_checkCancelled.meets _) fun _ => ?_
  exact Meets.require (fun _ _ h => h) fun _ _ h => h

/-- During an attempt, the one channel that may be open is the local one. -/
def Trying (w : World) (handles : Text → Option Handle) (request_id : Text) (port : Nat) (v : View) : Prop :=
  Holding w handles request_id port none v.channel v

theorem openChannel_meets :
    Meets (fun p => Holding w handles request_id port none none (view p)) openChannel
      (fun channel p => Trying w handles request_id port (view p) ∧ (view p).channel = some channel)
      (fun _ _ => False) := by
  intro p hp
  refine ⟨⟨⟨hp.created, hp.ports, hp.listings, hp.removals, ?_⟩, hp.handle⟩, rfl⟩
  intro channel hchannel
  obtain rfl | hchannel := List.mem_cons.mp (show channel ∈ _ :: opened p.log from hchannel)
  · exact .inr rfl
  · exact .inl ((hp.channels channel hchannel).resolve_right fun h => by cases h)

theorem closeChannel_meets {channel : Nat} {E : Fault → Process → Prop} {R : View → Prop}
    (hR : ∀ v, R v → R { v with ledger := { v.ledger with closed := channel :: v.ledger.closed } }) :
    Meets (fun p => Tunnel w request_id port (some channel) (view p) ∧ R (view p)) (closeChannel channel)
      (fun _ p => Tunnel w request_id port none (view p) ∧ R (view p)) E := by
  refine Meets.update fun p hp => ⟨⟨hp.1.created, hp.1.ports, hp.1.listings, hp.1.removals, ?_⟩, hR _ hp.2⟩
  intro other hother
  obtain hclosed | hspare := hp.1.channels other hother
  · exact .inl (List.mem_cons_of_mem channel hclosed)
  · rw [← Option.some.inj hspare]
    exact .inl List.mem_cons_self

theorem closeAttempt_meets :
    Meets (fun p => Trying w handles request_id port (view p)) (closeAttempt w)
      (fun _ p => Holding w handles request_id port none none (view p))
      (fun _ p => Holding w handles request_id port none none (view p)) := by
  refine Meets.bind (Q := fun channel p => Holding w handles request_id port none channel (view p))
    (Meets.read fun p hp => hp) fun channel => ?_
  refine Meets.bind (Q := fun _ p => Holding w handles request_id port none channel (view p))
    (Meets.read fun p hp => hp) fun sock => ?_
  cases channel with
  | some channel =>
    refine (closeChannel_meets (w := w) (R := fun v => ∃ service_started,
      v.handle = some ⟨port, none, service_started⟩ ∧
        v.handles = Function.update handles request_id (some ⟨port, none, service_started⟩)) ?_).mono
      (fun p hp => ⟨hp.toTunnel, hp.handle⟩) (fun _ p hp => ⟨hp.1, hp.2⟩) fun _ _ h => h
    exact fun v hv => hv
  | none =>
    refine Meets.ite (fun _ => ?_) fun _ => Meets.pure fun _ h => h
    exact (keeps_asking fun _ _ => rfl).meets (Holding w handles request_id port none none)

/-- A handshake ends with its channel or leaves it to the handlers. -/
theorem handshake_meets {payload : Bytes} :
    Meets (fun p => Holding w handles request_id port none none (view p) ∧ (view p).channel = none)
      (handshake w payload)
      (fun channel p => Holding w handles request_id port none (some channel) (view p))
      (fun e p => Trying w handles request_id port (view p) ∧ (Caught e ∨ (view p).channel = none)) := by
  have hidle {v : View} (h : Holding w handles request_id port none none v ∧ v.channel = none) :
      Trying w handles request_id port v := by
    rw [Trying, h.2]
    exact h.1
  have hbefore {α : Type} {x : Procedure α} (hx : Keeps view x) :
      Meets (fun p => Holding w handles request_id port none none (view p) ∧ (view p).channel = none) x
        (fun _ p => Holding w handles request_id port none none (view p) ∧ (view p).channel = none)
        (fun e p => Trying w handles request_id port (view p) ∧ (Caught e ∨ (view p).channel = none)) :=
    (hx.meets fun v => Holding w handles request_id port none none v ∧ v.channel = none).weaken
      fun _ _ h => ⟨hidle h, .inr h.2⟩
  have hopen {e : Fault} {p : Process} {channel : Nat} (h : (Trying w handles request_id port (view p) ∧
      (view p).channel = some channel) ∧ Caught e) :
      Trying w handles request_id port (view p) ∧ (Caught e ∨ (view p).channel = none) := ⟨h.1.1, .inl h.2⟩
  refine Meets.bind (hbefore (keeps_asking fun _ _ => rfl)) fun _ => ?_
  refine Meets.bind (hbefore (Keeps.update fun _ => rfl)) fun _ => ?_
  refine Meets.bind (hbefore (keeps_asking fun _ _ => rfl)) fun _ => ?_
  refine Meets.bind (openChannel_meets.mono (fun _ h => h.1) (fun _ _ h => h) fun _ _ h => h.elim) fun channel => ?_
  refine Meets.bind ((checkCancelled_meets fun v => Trying w handles request_id port v ∧
    v.channel = some channel).weaken fun _ _ h => hopen h) fun _ => ?_
  refine Meets.bind ((channelCall_meets (fun _ _ => rfl) fun v => Trying w handles request_id port v ∧
    v.channel = some channel).weaken fun _ _ h => hopen h) fun _ => ?_
  refine Meets.bind ((channelCall_meets (fun _ _ => rfl) fun v => Trying w handles request_id port v ∧
    v.channel = some channel).weaken fun _ _ h => hopen h) fun acknowledgement => ?_
  refine Meets.ite (fun _ => Meets.pure fun p h => ?_) fun _ => ?_
  · rw [← h.2]
    exact h.1
  · exact Meets.ite (fun _ => Meets.raise fun _ h => hopen ⟨h, trivial⟩) fun _ =>
      Meets.raise fun _ h => hopen ⟨h, trivial⟩

/-- What an attempt leaves open. -/
def Attempted (w : World) (handles : Text → Option Handle) (request_id : Text) (port : Nat) (v : View) :
    Except Text Nat → Prop
  | .ok channel => Holding w handles request_id port none (some channel) v
  | .error _ => Holding w handles request_id port none none v

theorem attempt_meets {payload : Bytes} :
    Meets (fun p => Holding w handles request_id port none none (view p)) (attempt w payload)
      (fun outcome p => Attempted w handles request_id port (view p) outcome)
      (fun _ p => Holding w handles request_id port none none (view p)) := by
  refine Meets.bind (keeps_checkCancelled.meets _) fun _ => ?_
  refine Meets.bind (Q := fun _ p => Holding w handles request_id port none none (view p) ∧
    (view p).channel = none) (Meets.update fun p hp => ⟨hp.channel none, rfl⟩) fun _ => ?_
  refine Meets.catching (Meets.bind handshake_meets fun channel => Meets.pure fun _ h => h) fun e => ?_
  have hretry (message : Text) : Meets (fun p => Trying w handles request_id port (view p))
      (do
        closeAttempt w
        checkCancelled w
        pure (.error message))
      (fun outcome p => Attempted w handles request_id port (view p) outcome)
      (fun _ p => Holding w handles request_id port none none (view p)) :=
    closeAttempt_meets.bind fun _ => Meets.bind (keeps_checkCancelled.meets _) fun _ => Meets.pure fun _ h => h
  have hpass : ¬Caught e → Meets
      (fun p => Trying w handles request_id port (view p) ∧ (Caught e ∨ (view p).channel = none)) (raise e)
      (fun outcome p => Attempted w handles request_id port (view p) outcome)
      (fun _ p => Holding w handles request_id port none none (view p)) := by
    refine fun he => Meets.raise fun p hp => ?_
    have hnone := hp.2.resolve_left he
    have htrying : Holding w handles request_id port none (view p).channel (view p) := hp.1
    rw [hnone] at htrying
    exact htrying
  cases e with
  | transfer message =>
    exact (closeAttempt_meets.mono (fun _ h => h.1) (fun _ _ h => h) fun _ _ h => h).bind fun _ =>
      Meets.raise fun _ h => h
  | timeout message => exact (hretry message).mono (fun _ h => h.1) (fun _ _ h => h) fun _ _ h => h
  | os message => exact (hretry message).mono (fun _ h => h.1) (fun _ _ h => h) fun _ _ h => h
  | eof message => exact (hretry message).mono (fun _ h => h.1) (fun _ _ h => h) fun _ _ h => h
  | value message => exact hpass id
  | other message => exact hpass id

theorem connectAttempts_meets {payload : Bytes} (turns : Nat) (last_error : Option Text) :
    Meets (fun p => Holding w handles request_id port none none (view p))
      (connectAttempts w payload turns last_error)
      (fun channel p => Holding w handles request_id port none (some channel) (view p))
      (fun _ p => Holding w handles request_id port none none (view p)) := by
  induction turns generalizing last_error with
  | zero => exact Meets.raise fun _ h => h
  | succ turns ih =>
    refine attempt_meets.bind fun outcome => ?_
    cases outcome with
    | ok channel => exact Meets.pure fun _ h => h
    | error message => exact ih (some message)

theorem connectControlChannel_meets {payload : Bytes} :
    Meets (fun p => Holding w handles request_id port none none (view p)) (connectControlChannel w payload)
      (fun channel p => Holding w handles request_id port none (some channel) (view p))
      (fun _ p => Holding w handles request_id port none none (view p)) :=
  Meets.bind (Meets.read fun _ h => h) fun turns => connectAttempts_meets turns none

theorem sendCommand_meets (R : View → Prop) (channel : Nat) (command : Text) :
    Meets (fun p => R (view p)) (sendCommand w channel command) (fun _ p => R (view p)) (fun _ _ => False) := by
  refine Meets.catching (E := fun e p => R (view p) ∧ Caught e)
    (Meets.bind (channelCall_meets (fun _ _ => rfl) R) fun _ => Meets.pure fun _ h => h) fun e => ?_
  cases e with
  | value => exact Meets.raise fun _ h => h.2
  | other => exact Meets.raise fun _ h => h.2
  | transfer => exact Meets.pure fun _ h => h.1
  | timeout => exact Meets.pure fun _ h => h.1
  | os => exact Meets.pure fun _ h => h.1
  | eof => exact Meets.pure fun _ h => h.1

theorem releaseChannel_meets (signal_cancel : Bool) :
    Meets (fun p => Tunnel w request_id port spare (view p) ∧ (view p).handles = handles)
      (releaseChannel w signal_cancel spare)
      (fun _ p => Tunnel w request_id port none (view p) ∧ (view p).handles = handles) (fun _ _ => False) := by
  cases spare with
  | none => exact Meets.pure fun _ h => h
  | some channel =>
    refine Meets.bind (sendCommand_meets
      (fun v => Tunnel w request_id port (some channel) v ∧ v.handles = handles) channel _) fun _ => ?_
    exact closeChannel_meets (R := fun v => v.handles = handles) fun v hv => hv

theorem signalService_meets (R : View → Prop) (session_id : Text) :
    Meets (fun p => R (view p)) (signalService w session_id) (fun _ p => R (view p)) (fun _ _ => False) := by
  refine Meets.catching (E := fun _ p => R (view p)) ?_ fun _ => Meets.pure fun _ h => h
  exact ((keeps_runAdb fun _ _ => rfl).bind fun _ => .pure _).meets R

theorem removeControlForward_meets (hfresh : handles request_id = none) (cleanup_error : Text) :
    Meets (fun p => Tunnel w request_id port none (view p) ∧ (view p).handles = handles)
      (removeControlForward w request_id port cleanup_error)
      (fun _ p => Freed w handles request_id port (view p)) (fun _ _ => False) := by
  have hfreed {p : Process} {reply : Reply}
      (hp : Tunnel w request_id port none (view p) ∧ (view p).handles = handles) :
      Freed w handles request_id port
        (view { p with log := .adb (.removeForward (tcpSpec port)) reply :: p.log }) := by
    refine ⟨hp.1.created, hp.1.ports, hp.1.listings, ⟨reply, ?_⟩, ?_, hfresh, hp.2⟩
    · exact congrArg (List.cons (tcpSpec port, reply)) hp.1.removals
    · exact fun channel h => (hp.1.channels channel h).resolve_right fun h => by cases h
  refine Meets.catching (E := fun _ p => Freed w handles request_id port (view p)) ?_
    fun _ => Meets.pure fun _ h => h
  exact (runAdb_meets (fun p _ hp => hfreed hp) fun p _ hp => hfreed hp).bind fun _ => Meets.pure fun _ h => h

theorem popHandle_meets (hfresh : handles request_id = none) :
    Meets (fun p => Holding w handles request_id port attached spare (view p)) (popHandle request_id)
      (fun entry p => ∃ service_started, entry = some ⟨port, attached, service_started⟩ ∧
        Tunnel w request_id port spare (view p) ∧ (view p).handles = handles) (fun _ _ => False) := by
  intro p hp
  obtain ⟨service_started, -, hhandles⟩ := hp.handle
  have hhandles : p.handles = _ := hhandles
  refine ⟨service_started, ?_, ⟨hp.created, hp.ports, hp.listings, hp.removals, hp.channels⟩, ?_⟩
  · rw [hhandles, Function.update_self]
  · change Function.update p.handles request_id none = handles
    rw [hhandles, Function.update_idem, ← hfresh, Function.update_eq_self]

theorem cleanupSessionFiles_meets (hfresh : handles request_id = none) (hlength : request_id.length = 32)
    (signal_cancel : Bool) :
    Meets (fun p => Holding w handles request_id port spare spare (view p))
      (cleanupSessionFiles w request_id signal_cancel)
      (fun _ p => Freed w handles request_id port (view p))
      (fun _ p => Freed w handles request_id port (view p)) := by
  rw [cleanupSessionFiles, if_neg (not_not.mpr hlength)]
  refine Meets.bind ((popHandle_meets hfresh).weaken fun _ _ h => h.elim) fun entry => ?_
  refine Meets.of_exists fun service_started => Meets.of_fact fun hentry => ?_
  subst hentry
  refine Meets.bind (Q := fun _ p => Tunnel w request_id port spare (view p) ∧ (view p).handles = handles)
    (fun p hp => hp) fun _ => ?_
  refine Meets.bind ((releaseChannel_meets signal_cancel).weaken fun _ _ h => h.elim) fun _ => ?_
  have hremove (cleanup_error : Text) :
      Meets (fun p => Tunnel w request_id port none (view p) ∧ (view p).handles = handles)
        (do
          let cleanup_error ← removeControlForward w request_id port cleanup_error
          require (cleanup_error = []) (.transfer (redactExact cleanup_error [request_id])))
        (fun _ p => Freed w handles request_id port (view p))
        (fun _ p => Freed w handles request_id port (view p)) :=
    Meets.bind ((removeControlForward_meets hfresh cleanup_error).weaken fun _ _ h => h.elim)
      fun _ => Meets.require (fun _ _ h => h) fun _ _ h => h
  refine Meets.ite (fun _ => Meets.bind ?_ hremove) fun _ => Meets.bind (Meets.pure fun _ h => h) hremove
  exact (signalService_meets (fun v => Tunnel w request_id port none v ∧ v.handles = handles) request_id).weaken
    fun _ _ h => h.elim

theorem warning_meets (R : View → Prop) :
    Meets (fun p => R (view p)) (catching (emit w) fun _ => pure ()) (fun _ p => R (view p)) (fun _ _ => False) :=
  Meets.catching (keeps_emit.meets R) fun _ => Meets.pure fun _ h => h

theorem cleanupSessionFilesSafely_meets (hfresh : handles request_id = none) (hlength : request_id.length = 32)
    (signal_cancel : Bool) :
    Meets (fun p => Holding w handles request_id port spare spare (view p))
      (cleanupSessionFilesSafely w request_id signal_cancel)
      (fun _ p => Freed w handles request_id port (view p)) (fun _ _ => False) :=
  Meets.catching (cleanupSessionFiles_meets hfresh hlength signal_cancel) fun _ =>
    warning_meets (Freed w handles request_id port)

/-- Without an entry the cleanup does nothing. -/
theorem cleanupSessionFilesSafely_absent {R : View → Prop} (hR : ∀ v, R v → v.handles request_id = none)
    (signal_cancel : Bool) :
    Meets (fun p => R (view p)) (cleanupSessionFilesSafely w request_id signal_cancel)
      (fun _ p => R (view p)) (fun _ _ => False) := by
  refine Meets.catching (E := fun _ p => R (view p)) (Meets.ite (fun _ => Meets.pure fun _ h => h) fun _ => ?_)
    fun _ => warning_meets R
  intro p hp
  have hentry : p.handles request_id = none := hR _ hp
  have hpop : popHandle request_id p = (.ok none, p) := by
    rw [popHandle, hentry]
    congr 1
    rw [← hentry, Function.update_eq_self]
  exact Outcome.bind_ok hpop hp

end Calls

end OpenAdb.P2p.Tunnels
