import OpenAdb.Lib.Runs
import Mathlib.Tactic.SplitIfs
import Mathlib.Data.List.Basic

namespace OpenAdb.P2p.Lifecycle

open OpenAdb.Lib.Runs

abbrev Text := List Char

def isHexDigit (c : Char) : Bool :=
  ('0' ≤ c ∧ c ≤ '9') ∨ ('a' ≤ c ∧ c ≤ 'f') ∨ ('A' ≤ c ∧ c ≤ 'F')

/-- Anything but 32 hexadecimal digits counts as an absent id. -/
def safeRequestId : Option Text → Text
  | none => []
  | some value =>
    if value.length = 32 ∧ value.all isHexDigit then value.map Char.toLower else []

structure StartIntent where
  request_id : Option Text
  cancel_id : Option Text
  deriving DecidableEq

/-- How far a session object has got: `putIfAbsent` by the main thread, the
counter increment, `worker.start`, and then the finalizer of the worker. -/
inductive Phase
  | admitted | counted | running | returned | finished | removed | released
  deriving DecidableEq

def Phase.holdsCount : Phase → Bool
  | .admitted | .released => false
  | _ => true

def Phase.hasFinished : Phase → Bool
  | .finished | .removed | .released => true
  | _ => false

structure ControlSession where
  requestId : Text
  phase : Phase
  cancelled : Bool
  deriving DecidableEq

/-- The place of the main thread between two atomic sections. -/
inductive MainThread
  | looper
  | delivered (startId : Nat) (intent : Option StartIntent)
  | routed (startId : Nat) (requestId cancelId : Text)
  | stopIfIdle (startId : Nat)
  | stopping (startId : Nat) (stopImmediately : Bool)
  | admitting (session : Nat)
  | starting (session : Nat)
  deriving DecidableEq

/-- Session objects keep their index in `sessions`, the identity that the
two-argument `remove` of the map compares. -/
structure Service where
  main : MainThread
  sessions : List ControlSession
  activeControlSessions : List (Text × Nat)
  activeSessionCount : Int
  latestStartId : Nat
  newestStartId : Nat
  stopping : Bool
  stopped : Bool
  deriving DecidableEq

def Service.onCreate : Service := ⟨.looper, [], [], 0, 0, 0, false, false⟩

inductive Action
  | deliver (startId : Nat) (intent : Option StartIntent)
  | main
  | worker (session : Nat)
  | onDestroy
  deriving DecidableEq

def Service.setPhase (s : Service) (i : Nat) (p : Phase) : Service :=
  { s with sessions := s.sessions.modify i (fun c => { c with phase := p }) }

def Service.cancel (s : Service) (i : Nat) : Service :=
  { s with sessions := s.sessions.modify i (fun c => { c with cancelled := true }) }

/-- Android stops the service exactly when the id is the newest delivered one. -/
def Service.stopSelfResult (s : Service) (startId : Nat) : Service :=
  if startId = s.newestStartId then { s with stopped := true } else s

def Service.mainStep (s : Service) : Option (Service × Option Nat) :=
  match s.main with
  | .looper => none
  | .delivered startId intent =>
    let requestId := safeRequestId (intent.bind (·.request_id))
    let cancelId := safeRequestId (intent.bind (·.cancel_id))
    some ({ s with latestStartId := startId, main := .routed startId requestId cancelId }, none)
  | .routed startId requestId cancelId =>
    if cancelId ≠ [] then
      let s' := match s.activeControlSessions.lookup cancelId with
        | none => s
        | some target => s.cancel target
      some ({ s' with main := .stopIfIdle startId }, none)
    else if requestId = [] then
      some ({ s with main := .stopIfIdle startId }, none)
    else if (s.activeControlSessions.lookup requestId).isSome then
      some ({ s with main := .looper }, none)
    else
      let controlSession : ControlSession := ⟨requestId, .admitted, false⟩
      some ({ s with
        sessions := s.sessions ++ [controlSession]
        activeControlSessions := (requestId, s.sessions.length) :: s.activeControlSessions
        main := .admitting s.sessions.length }, none)
  | .stopIfIdle startId =>
    some ({ s with main := .stopping startId (s.activeSessionCount = 0) }, none)
  | .stopping startId stopImmediately =>
    if stopImmediately then
      some ({ s.stopSelfResult startId with main := .looper }, some startId)
    else
      some ({ s with main := .looper }, none)
  | .admitting i =>
    some ({ s.setPhase i .counted with
      activeSessionCount := s.activeSessionCount + 1, main := .starting i }, none)
  | .starting i => some ({ s.setPhase i .running with main := .looper }, none)

/-- The body of the worker may return at any time; after it the finalizer runs
its three sections in order. -/
def Service.workerStep (s : Service) (i : Nat) : Option (Service × Option Nat) :=
  match s.sessions[i]? with
  | none => none
  | some controlSession =>
    match controlSession.phase with
    | .admitted | .counted | .released => none
    | .running => some (s.setPhase i .returned, none)
    | .returned => some (s.setPhase i .finished, none)
    | .finished =>
      some ({ s.setPhase i .removed with
        activeControlSessions :=
          s.activeControlSessions.filter (· ≠ (controlSession.requestId, i)) }, none)
    | .removed =>
      let s' := { s.setPhase i .released with activeSessionCount := s.activeSessionCount - 1 }
      if s'.activeSessionCount = 0 then
        some (s'.stopSelfResult s.latestStartId, some s.latestStartId)
      else some (s', none)

/-- One atomic section, with the argument of the `stopSelfResult` call in it. -/
def Service.section (s : Service) : Action → Option (Service × Option Nat)
  | .deliver startId intent =>
    if s.main = .looper ∧ s.stopped = false ∧ s.newestStartId < startId then
      some ({ s with main := .delivered startId intent, newestStartId := startId }, none)
    else none
  | .main => s.mainStep
  | .worker i => s.workerStep i
  | .onDestroy =>
    if s.main = .looper ∧ s.stopped ∧ s.stopping = false then
      let ids := s.activeControlSessions.map (·.2)
      some ({ ids.foldl Service.cancel s with stopping := true }, none)
    else none

def step (s : Service) (a : Action) : Option Service := (s.section a).map (·.1)

def stopSelfResultCall (s : Service) (a : Action) : Option Nat := (s.section a).bind (·.2)

/-- No call that stops the service is made while an admitted session is unfinished. -/
def Safe (s : Service) (a : Action) : Prop :=
  stopSelfResultCall s a = some s.newestStartId → ∀ c ∈ s.sessions, c.phase.hasFinished = true

def Service.inAdmission (s : Service) : Bool :=
  match s.main with
  | .admitting _ => true
  | _ => false

def Service.phases (s : Service) : List Phase := s.sessions.map (·.phase)

/-- A finalizer that takes the counter to zero does not run between the
`putIfAbsent` of a new session and the increment for it. -/
def Quiet (s : Service) : Action → Prop
  | .worker i =>
    s.phases[i]? = some .removed ∧ s.activeSessionCount = 1 → s.inAdmission = false
  | _ => True

instance (s : Service) (a : Action) : Decidable (Safe s a) :=
  inferInstanceAs (Decidable (_ → _))

theorem phases_setPhase (s : Service) (i : Nat) (p : Phase) :
    (s.setPhase i p).phases = s.phases.set i p := by
  unfold Service.phases Service.setPhase
  dsimp only
  induction s.sessions generalizing i with
  | nil => simp
  | cons c l ih => cases i <;> simp [ih]

theorem phases_cancel (s : Service) (i : Nat) : (s.cancel i).phases = s.phases := by
  unfold Service.phases Service.cancel
  dsimp only
  induction s.sessions generalizing i with
  | nil => simp
  | cons c l ih => cases i <;> simp [ih]

theorem phases_stopSelfResult (s : Service) (id : Nat) :
    (s.stopSelfResult id).phases = s.phases := by
  unfold Service.stopSelfResult Service.phases
  split <;> rfl

/-- Cancelling changes no field that the lifecycle decisions read. -/
def SameLifecycle (s t : Service) : Prop :=
  t.main = s.main ∧ t.phases = s.phases ∧ t.activeSessionCount = s.activeSessionCount ∧
    t.latestStartId = s.latestStartId ∧ t.newestStartId = s.newestStartId

theorem foldl_cancel_sameLifecycle (ids : List Nat) (s : Service) :
    SameLifecycle s (ids.foldl Service.cancel s) := by
  induction ids generalizing s with
  | nil => exact ⟨rfl, rfl, rfl, rfl, rfl⟩
  | cons i ids ih =>
    obtain ⟨hm, hp, hc, hl, hn⟩ := ih (s.cancel i)
    exact ⟨hm, hp.trans (phases_cancel s i), hc, hl, hn⟩

/-- What the main thread may rely on at each of its places. -/
def Service.MainReady (s : Service) : Prop :=
  match s.main with
  | .delivered id _ => id = s.newestStartId
  | .routed _ _ _ => s.latestStartId = s.newestStartId
  | .admitting i => s.latestStartId = s.newestStartId ∧ s.phases[i]? = some .admitted
  | .starting i => s.phases[i]? = some .counted
  | .stopping _ true => ∀ p ∈ s.phases, p = .released
  | _ => True

/-- What holds between two atomic sections of any run: the counter counts the
sessions between their increment and their release, and the only session that
was admitted but not counted is the one the main thread is admitting. -/
structure Consistent (s : Service) : Prop where
  count : s.activeSessionCount = s.phases.countP Phase.holdsCount
  admitted : ∀ i : Nat, s.phases[i]? = some .admitted → s.main = .admitting i
  ready : s.MainReady

theorem onCreate_consistent : Consistent Service.onCreate where
  count := rfl
  admitted i hi := by simp [Service.onCreate, Service.phases] at hi
  ready := trivial

theorem countP_set_phase (l : List Phase) (i : Nat) (p q : Phase) (hi : l[i]? = some p) :
    (l.set i q).countP Phase.holdsCount + (if p.holdsCount then 1 else 0) =
      l.countP Phase.holdsCount + (if q.holdsCount then 1 else 0) := by
  induction l generalizing i with
  | nil => simp at hi
  | cons d l ih =>
    cases i with
    | zero =>
      simp only [List.getElem?_cons_zero, Option.some.injEq] at hi
      subst d
      simp only [List.set_cons_zero, List.countP_cons]
      omega
    | succ i =>
      simp only [List.getElem?_cons_succ] at hi
      have h := ih i hi
      simp only [List.set_cons_succ, List.countP_cons]
      omega

/-- With an empty counter and no admission under way every session is released. -/
theorem released_of_count_zero {s : Service} (hs : Consistent s)
    (hna : ∀ i, s.main ≠ .admitting i) (h0 : s.activeSessionCount = 0) :
    ∀ p ∈ s.phases, p = .released := by
  intro p hp
  have hc : s.phases.countP Phase.holdsCount = 0 := by
    have h := hs.count
    omega
  have hh := List.countP_eq_zero.mp hc p hp
  obtain ⟨i, hi⟩ := List.mem_iff_getElem?.mp hp
  cases p with
  | admitted => exact absurd (hs.admitted i hi) (hna i)
  | released => rfl
  | _ => simp [Phase.holdsCount] at hh

/-- A step of the main thread that touches no session. -/
theorem Consistent.move {s t : Service} (hs : Consistent s) (hp : t.phases = s.phases)
    (hc : t.activeSessionCount = s.activeSessionCount)
    (hfrom : ∀ i, s.main ≠ .admitting i) (hready : t.MainReady) : Consistent t where
  count := by rw [hc, hp]; exact hs.count
  admitted i hi := absurd (hs.admitted i (hp ▸ hi)) (hfrom i)
  ready := hready

/-- A session of the list moves on and the counter follows it. -/
theorem Consistent.setPhase {s t : Service} (hs : Consistent s) {i : Nat} {p q : Phase}
    (hi : s.phases[i]? = some p) (hq : q ≠ .admitted) (hset : t.phases = s.phases.set i q)
    (hc : t.activeSessionCount + (if p.holdsCount then 1 else 0) =
      s.activeSessionCount + (if q.holdsCount then 1 else 0))
    (hm : ∀ j, j ≠ i → s.main = .admitting j → t.main = .admitting j)
    (hready : t.MainReady) : Consistent t where
  count := by
    have h := countP_set_phase s.phases i p q hi
    have hcount := hs.count
    rw [hset]
    split_ifs at h hc <;> omega
  admitted j hj := by
    rw [hset, List.getElem?_set] at hj
    split at hj
    · split at hj
      · exact absurd (Option.some.inj hj) hq
      · cases hj
    · rename_i hne
      exact hm j (Ne.symm hne) (hs.admitted j hj)
  ready := hready

/-- The places of the main thread do not depend on a session that a worker moves. -/
theorem MainReady.worker {s t : Service} (hs : s.MainReady) {i : Nat} {p q : Phase}
    (hi : s.phases[i]? = some p) (hpa : p ≠ .admitted) (hpc : p ≠ .counted)
    (hpr : p ≠ .released) (hset : t.phases = s.phases.set i q) (hm : t.main = s.main)
    (hl : t.latestStartId = s.latestStartId) (hn : t.newestStartId = s.newestStartId) :
    t.MainReady := by
  have hother : ∀ (j : Nat) (r : Phase), s.phases[j]? = some r → r ≠ p →
      t.phases[j]? = some r := by
    intro j r hj hr
    have hne : i ≠ j := fun h => hr (Option.some.inj ((h ▸ hj).symm.trans (h ▸ hi)))
    rw [hset, List.getElem?_set_ne hne, hj]
  unfold Service.MainReady at hs ⊢
  rw [hm, hl, hn]
  cases hmain : s.main with
  | delivered | routed =>
    simp only [hmain] at hs
    exact hs
  | looper | stopIfIdle => trivial
  | admitting j =>
    simp only [hmain] at hs ⊢
    exact ⟨hs.1, hother j _ hs.2 (Ne.symm hpa)⟩
  | starting j =>
    simp only [hmain] at hs ⊢
    exact hother j _ hs (Ne.symm hpc)
  | stopping id stopImmediately =>
    cases stopImmediately with
    | false => trivial
    | true =>
      simp only [hmain] at hs
      exact absurd (hs p (List.mem_of_getElem? hi)) hpr

theorem phases_getElem? (s : Service) (i : Nat) :
    s.phases[i]? = s.sessions[i]?.map (·.phase) := by
  simp [Service.phases]

theorem stopSelfResult_fields (s : Service) (id : Nat) :
    (s.stopSelfResult id).main = s.main ∧
      (s.stopSelfResult id).activeSessionCount = s.activeSessionCount ∧
      (s.stopSelfResult id).latestStartId = s.latestStartId ∧
      (s.stopSelfResult id).newestStartId = s.newestStartId := by
  unfold Service.stopSelfResult
  split <;> exact ⟨rfl, rfl, rfl, rfl⟩

theorem workerStep_consistent {s t : Service} {i : Nat} {o : Option Nat} (hs : Consistent s)
    (h : s.workerStep i = some (t, o)) : Consistent t := by
  unfold Service.workerStep at h
  cases hc : s.sessions[i]? with
  | none => simp [hc] at h
  | some c =>
    have hi : s.phases[i]? = some c.phase := by rw [phases_getElem?, hc]; rfl
    -- every worker section moves session `i` from its phase to a later one
    have hmove : ∀ (q : Phase) (u : Service), c.phase ≠ .admitted → c.phase ≠ .counted →
        c.phase ≠ .released → q ≠ .admitted → u.phases = s.phases.set i q →
        u.main = s.main → u.latestStartId = s.latestStartId →
        u.newestStartId = s.newestStartId →
        u.activeSessionCount + (if c.phase.holdsCount then 1 else 0) =
          s.activeSessionCount + (if q.holdsCount then 1 else 0) → Consistent u :=
      fun q u ha hcnt hr hq hset hm hl hn hcount =>
        hs.setPhase hi hq hset hcount (fun j _ hj => hm.trans hj)
          (MainReady.worker hs.ready hi ha hcnt hr hset hm hl hn)
    simp only [hc] at h
    cases hp : c.phase with
    | admitted | counted | released => simp [hp] at h
    | running =>
      simp only [hp, Option.some.injEq, Prod.mk.injEq] at h
      obtain ⟨rfl, rfl⟩ := h
      exact hmove .returned _ (by simp [hp]) (by simp [hp]) (by simp [hp]) (by decide)
        (phases_setPhase s i _) rfl rfl rfl (by rw [hp]; rfl)
    | returned =>
      simp only [hp, Option.some.injEq, Prod.mk.injEq] at h
      obtain ⟨rfl, rfl⟩ := h
      exact hmove .finished _ (by simp [hp]) (by simp [hp]) (by simp [hp]) (by decide)
        (phases_setPhase s i _) rfl rfl rfl (by rw [hp]; rfl)
    | finished =>
      simp only [hp, Option.some.injEq, Prod.mk.injEq] at h
      obtain ⟨rfl, rfl⟩ := h
      exact hmove .removed _ (by simp [hp]) (by simp [hp]) (by simp [hp]) (by decide)
        (phases_setPhase s i _) rfl rfl rfl (by rw [hp]; rfl)
    | removed =>
      simp only [hp] at h
      split at h
      · simp only [Option.some.injEq, Prod.mk.injEq] at h
        obtain ⟨rfl, rfl⟩ := h
        obtain ⟨hm, hcnt, hl, hn⟩ := stopSelfResult_fields
          { s.setPhase i .released with activeSessionCount := s.activeSessionCount - 1 }
          s.latestStartId
        refine hmove .released _ (by simp [hp]) (by simp [hp]) (by simp [hp]) (by decide)
          ((phases_stopSelfResult _ _).trans (phases_setPhase s i _)) hm hl hn ?_
        rw [hcnt, hp]
        simp [Phase.holdsCount]
      · simp only [Option.some.injEq, Prod.mk.injEq] at h
        obtain ⟨rfl, rfl⟩ := h
        refine hmove .released _ (by simp [hp]) (by simp [hp]) (by simp [hp]) (by decide)
          (phases_setPhase s i _) rfl rfl rfl ?_
        rw [hp]
        simp [Phase.holdsCount]

theorem mainStep_consistent {s t : Service} {o : Option Nat} (hs : Consistent s)
    (h : s.mainStep = some (t, o)) : Consistent t := by
  unfold Service.mainStep at h
  have hready := hs.ready
  unfold Service.MainReady at hready
  cases hm : s.main with
  | looper => simp [hm] at h
  | delivered startId intent =>
    simp only [hm, Option.some.injEq, Prod.mk.injEq] at h hready
    obtain ⟨rfl, rfl⟩ := h
    exact hs.move rfl rfl (by simp [hm]) hready
  | routed startId requestId cancelId =>
    simp only [hm] at h hready
    split at h
    · simp only [Option.some.injEq, Prod.mk.injEq] at h
      obtain ⟨rfl, rfl⟩ := h
      cases hl : s.activeControlSessions.lookup cancelId with
      | none => exact hs.move rfl rfl (by simp [hm]) trivial
      | some target => exact hs.move (phases_cancel s target) rfl (by simp [hm]) trivial
    · split at h
      · simp only [Option.some.injEq, Prod.mk.injEq] at h
        obtain ⟨rfl, rfl⟩ := h
        exact hs.move rfl rfl (by simp [hm]) trivial
      · split at h
        · simp only [Option.some.injEq, Prod.mk.injEq] at h
          obtain ⟨rfl, rfl⟩ := h
          exact hs.move rfl rfl (by simp [hm]) trivial
        · simp only [Option.some.injEq, Prod.mk.injEq] at h
          obtain ⟨rfl, rfl⟩ := h
          have hlen : s.sessions.length = s.phases.length := by simp [Service.phases]
          constructor
          · simpa [Service.phases, Phase.holdsCount] using hs.count
          · intro i hi
            simp only [Service.phases, List.map_append, List.map_cons, List.map_nil] at hi
            rw [List.getElem?_append] at hi
            split at hi
            · exact absurd (hs.admitted i hi) (by simp [hm])
            · rename_i hge
              have hz := List.getElem?_eq_some_iff.mp hi
              obtain ⟨hlt, _⟩ := hz
              simp only [List.length_map, List.length_singleton] at hlt hge
              simp only [MainThread.admitting.injEq]
              omega
          · exact ⟨hready, by simp [Service.phases]⟩
  | stopIfIdle startId =>
    simp only [hm, Option.some.injEq, Prod.mk.injEq] at h
    obtain ⟨rfl, rfl⟩ := h
    refine hs.move rfl rfl (by simp [hm]) ?_
    by_cases h0 : s.activeSessionCount = 0
    · have hr := released_of_count_zero hs (by simp [hm]) h0
      simp only [Service.MainReady, h0, decide_true]
      exact hr
    · simp [Service.MainReady, h0]
  | stopping startId stopImmediately =>
    simp only [hm] at h
    split at h
    · simp only [Option.some.injEq, Prod.mk.injEq] at h
      obtain ⟨rfl, rfl⟩ := h
      exact hs.move (phases_stopSelfResult s startId) (stopSelfResult_fields s startId).2.1
        (by simp [hm]) trivial
    · simp only [Option.some.injEq, Prod.mk.injEq] at h
      obtain ⟨rfl, rfl⟩ := h
      exact hs.move rfl rfl (by simp [hm]) trivial
  | admitting i =>
    simp only [hm, Option.some.injEq, Prod.mk.injEq] at h hready
    obtain ⟨rfl, rfl⟩ := h
    refine hs.setPhase hready.2 (q := .counted) (by decide) (phases_setPhase s i _)
      (by simp [Phase.holdsCount]) ?_ ?_
    · intro j hne hj
      rw [hm] at hj
      exact absurd (MainThread.admitting.inj hj).symm hne
    · change (s.setPhase i .counted).phases[i]? = _
      rw [phases_setPhase]
      obtain ⟨hlt, _⟩ := List.getElem?_eq_some_iff.mp hready.2
      simp [hlt]
  | starting i =>
    simp only [hm, Option.some.injEq, Prod.mk.injEq] at h hready
    obtain ⟨rfl, rfl⟩ := h
    refine hs.setPhase hready (q := .running) (by decide) (phases_setPhase s i _) rfl ?_ trivial
    intro j _ hj
    rw [hm] at hj
    cases hj

theorem step_consistent (s : Service) (a : Action) (t : Service) (hs : Consistent s)
    (h : step s a = some t) : Consistent t := by
  unfold step at h
  obtain ⟨⟨u, o⟩, hu, rfl⟩ := Option.map_eq_some_iff.mp h
  cases a with
  | deliver startId intent =>
    simp only [Service.section] at hu
    split at hu
    · rename_i hd
      simp only [Option.some.injEq, Prod.mk.injEq] at hu
      obtain ⟨rfl, rfl⟩ := hu
      exact hs.move rfl rfl (by simp [hd.1]) rfl
    · cases hu
  | main => exact mainStep_consistent hs hu
  | worker i => exact workerStep_consistent hs hu
  | onDestroy =>
    simp only [Service.section] at hu
    split at hu
    · rename_i hd
      simp only [Option.some.injEq, Prod.mk.injEq] at hu
      obtain ⟨rfl, rfl⟩ := hu
      obtain ⟨hm, hp, hc, _, _⟩ :=
        foldl_cancel_sameLifecycle (s.activeControlSessions.map (·.2)) s
      refine hs.move hp hc (by simp [hd.1]) ?_
      unfold Service.MainReady
      dsimp only
      rw [hm, hd.1]
      trivial
    · cases hu

theorem hasFinished_of_released {s : Service} (h : ∀ p ∈ s.phases, p = .released) :
    ∀ c ∈ s.sessions, c.phase.hasFinished = true := by
  intro c hc
  rw [h c.phase (List.mem_map_of_mem hc)]
  rfl

/-- When one session holds the counter and it is being released, all others are. -/
theorem hasFinished_of_count_one {s : Service} (hs : Consistent s) {i : Nat}
    (hi : s.phases[i]? = some .removed) (hna : ∀ j, s.main ≠ .admitting j)
    (h1 : s.activeSessionCount = 1) : ∀ c ∈ s.sessions, c.phase.hasFinished = true := by
  intro c hc
  obtain ⟨j, hj⟩ := List.mem_iff_getElem?.mp hc
  have hjp : s.phases[j]? = some c.phase := by rw [phases_getElem?, hj]; rfl
  by_cases hij : i = j
  · subst j
    rw [Option.some.inj (hjp.symm.trans hi)]
    rfl
  have hcount := hs.count
  have hset := countP_set_phase s.phases i .removed .released hi
  simp only [Phase.holdsCount, if_true, Bool.false_eq_true, if_false] at hset
  have hzero : (s.phases.set i .released).countP Phase.holdsCount = 0 := by omega
  have hmem : c.phase ∈ s.phases.set i .released :=
    List.mem_of_getElem? (by rw [List.getElem?_set_ne hij]; exact hjp)
  have hfree := List.countP_eq_zero.mp hzero c.phase hmem
  cases hph : c.phase with
  | admitted => exact absurd (hs.admitted j (hph ▸ hjp)) (hna j)
  | released => rfl
  | _ => simp [hph, Phase.holdsCount] at hfree

theorem stopSelfResultCall_main (s : Service) :
    stopSelfResultCall s .main =
      match s.main with
      | .stopping id true => some id
      | _ => none := by
  unfold stopSelfResultCall Service.section Service.mainStep
  cases hm : s.main with
  | stopping id stopImmediately => cases stopImmediately <;> rfl
  | routed id r c =>
    dsimp only
    split_ifs <;> rfl
  | _ => rfl

theorem stopSelfResultCall_worker (s : Service) (i : Nat) :
    stopSelfResultCall s (.worker i) =
      if s.phases[i]? = some .removed ∧ s.activeSessionCount = 1 then some s.latestStartId
      else none := by
  unfold stopSelfResultCall Service.section Service.workerStep
  rw [phases_getElem?]
  cases hc : s.sessions[i]? with
  | none => simp [hc]
  | some c =>
    cases hp : c.phase with
    | removed =>
      by_cases h1 : s.activeSessionCount = 1
      · simp [hc, hp, h1]
      · have h0 : ¬ s.activeSessionCount - 1 = 0 := by omega
        simp [hc, hp, h0, h1]
    | _ => simp [hc, hp]

theorem safe_worker_iff {s : Service} (hs : Consistent s) (i : Nat) :
    Safe s (.worker i) ↔ Quiet s (.worker i) := by
  unfold Safe Quiet
  rw [stopSelfResultCall_worker]
  by_cases hz : s.phases[i]? = some .removed ∧ s.activeSessionCount = 1
  · simp only [hz, and_self, if_true, Option.some.injEq, forall_const]
    constructor
    · intro hsafe
      unfold Service.inAdmission
      split
      · rename_i j hm
        have hready := hs.ready
        simp only [Service.MainReady, hm] at hready
        obtain ⟨hl, hj⟩ := hready
        rw [phases_getElem?] at hj
        obtain ⟨d, hd, hph⟩ := Option.map_eq_some_iff.mp hj
        have hfin := hsafe hl d (List.mem_of_getElem? hd)
        simp [hph, Phase.hasFinished] at hfin
      · rfl
    · intro hq _
      refine hasFinished_of_count_one hs hz.1 (fun j hm => ?_) hz.2
      simp [Service.inAdmission, hm] at hq
  · simp [hz]

/-- A step of the service is safe exactly when it is quiet. -/
theorem safe_iff_quiet (s : Service) (a : Action) (hs : Consistent s) :
    Safe s a ↔ Quiet s a := by
  cases a with
  | deliver startId intent =>
    refine iff_of_true (fun hcall => ?_) trivial
    unfold stopSelfResultCall Service.section at hcall
    dsimp only at hcall
    split_ifs at hcall <;> simp at hcall
  | main =>
    refine iff_of_true (fun hcall => ?_) trivial
    have hready := hs.ready
    rw [stopSelfResultCall_main] at hcall
    unfold Service.MainReady at hready
    split at hcall
    · rename_i id hm
      simp only [hm] at hready
      exact hasFinished_of_released hready
    · cases hcall
  | worker i => exact safe_worker_iff hs i
  | onDestroy =>
    refine iff_of_true (fun hcall => ?_) trivial
    unfold stopSelfResultCall Service.section at hcall
    dsimp only at hcall
    split_ifs at hcall <;> simp at hcall

/-- In every schedule the service is never stopped under an unfinished session,
exactly when no finalizer empties the counter inside an admission. -/
theorem live_session_survives_iff (schedule : List Action) :
    Along step Safe Service.onCreate schedule ↔ Along step Quiet Service.onCreate schedule :=
  Along.iff_of_invariant Consistent step_consistent (fun s a _ hs _ => safe_iff_quiet s a hs) _
    onCreate_consistent schedule

/-- The second request is admitted, and before its increment the finalizer of
the first one takes the counter to zero and stops the newest start id. -/
def overlappingRequests : List Action :=
  let first : StartIntent := ⟨some (List.replicate 32 'a'), none⟩
  let second : StartIntent := ⟨some (List.replicate 32 'b'), none⟩
  [.deliver 1 first, .main, .main, .main, .main, .worker 0, .worker 0, .worker 0,
    .deliver 2 second, .main, .main, .worker 0]

theorem live_session_killed : ¬ Along step Safe Service.onCreate overlappingRequests := by
  decide

end OpenAdb.P2p.Lifecycle
