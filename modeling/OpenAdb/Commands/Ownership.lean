import OpenAdb.Lib.Runs
import Mathlib.Logic.Function.Basic

namespace OpenAdb.Commands.Ownership

open OpenAdb.Lib.Runs

variable {C P : Type} [DecidableEq C] [DecidableEq P]

/-- What tells the calls apart: whether they poll while threads stream the output
or wait in `communicate`, and whether `communicate` is interrupted by a cancel event. -/
structure Shape where
  streams : Bool
  cancellable : Bool

def run : Shape := ⟨false, false⟩

def runBinaryOutput : Shape := ⟨false, true⟩

def runStreaming : Shape := ⟨true, true⟩

def runWithInputStream : Shape := ⟨true, true⟩

def runBinaryOutputToFile : Shape := ⟨true, true⟩

def runBinaryOutputWithWriter : Shape := ⟨true, true⟩

/-- Where a call stands; `killing` is the handler of `TimeoutExpired`, `leaving`
the finally block. -/
inductive Point
  | starting | threads | polling | communicating | reaping | killing | leaving | returned
  deriving DecidableEq

structure Call (P : Type) where
  point : Point
  process : Option P

structure Process where
  started : Bool
  exited : Bool
  killed : Bool
  deriving DecidableEq

inductive Shutdown (P : Type)
  | pending
  | killing (processes : List P)
  | returned
  deriving DecidableEq

structure State (C P : Type) where
  shuttingDown : Bool
  activeProcesses : List P
  processes : P → Process
  calls : C → Call P
  shutdown : Shutdown P

/-- How a call that waits for the process comes back. -/
inductive Wait
  | exited | timeoutExpired | raised
  deriving DecidableEq

inductive Action (C P : Type)
  | refuse (c : C)
  | start (c : C) (process : Option P)
  | startThreads (c : C) (raises : Bool)
  | poll (c : C)
  | kill (c : C) (raises : Bool)
  | communicate (c : C) (wait : Wait)
  | reap (c : C) (wait : Wait)
  | handlerKill (c : C) (raises : Bool)
  | interrupt (c : C)
  | unregister (c : C)
  | exit (p : P)
  | beginShutdown
  | shutdownKill (raises : Bool)
  | endShutdown

def State.setCall (s : State C P) (c : C) (call : Call P) : State C P :=
  { s with calls := Function.update s.calls c call }

def State.goto (s : State C P) (c : C) (point : Point) : State C P :=
  s.setCall c { s.calls c with point := point }

def State.mark (s : State C P) (p : P) (process : Process) : State C P :=
  { s with processes := Function.update s.processes p process }

/-- `kill` reaches the process unless it raises. -/
def State.kill (s : State C P) (p : P) (raises : Bool) : State C P :=
  if raises then s else s.mark p { s.processes p with killed := true }

def State.killOwn (s : State C P) (c : C) (raises : Bool) : State C P :=
  match (s.calls c).process with
  | some p => s.kill p raises
  | none => s

/-- The process of a call has exited. -/
def State.reaped (s : State C P) (c : C) : Bool :=
  match (s.calls c).process with
  | some p => (s.processes p).exited
  | none => true

/-- A wait for the process of a call comes back; `later` is its `TimeoutExpired`. -/
def State.wait (s : State C P) (c : C) (wait : Wait) (later : Option (State C P)) :
    Option (State C P) :=
  match wait with
  | .exited => if s.reaped c then some (s.goto c .leaving) else none
  | .timeoutExpired => later
  | .raised => some (s.goto c .leaving)

/-- `_start_process`: the flag is read and the process registered in one section. -/
def State.start (s : State C P) (shape : Shape) (c : C) (process : Option P) : Option (State C P) :=
  if s.shuttingDown then some (s.goto c .returned)
  else match process with
    | none => some (s.goto c .leaving)
    | some p =>
      if (s.processes p).started then none
      else some { (s.mark p ⟨true, false, false⟩).setCall c
          ⟨if shape.streams then .threads else .communicating, some p⟩ with
        activeProcesses := p :: s.activeProcesses }

def State.unregister (s : State C P) (c : C) : State C P :=
  match (s.calls c).process with
  | some p => { s.goto c .returned with activeProcesses := s.activeProcesses.filter (· ≠ p) }
  | none => s.goto c .returned

def Point.interruptible : Point → Bool
  | .threads | .polling | .communicating | .reaping | .killing => true
  | _ => false

def step (shape : C → Shape) (s : State C P) : Action C P → Option (State C P)
  | .refuse c => if (s.calls c).point = .starting then some (s.goto c .returned) else none
  | .start c process =>
    if (s.calls c).point = .starting then s.start (shape c) c process else none
  | .startThreads c raises =>
    if (s.calls c).point = .threads then some (s.goto c (if raises then .leaving else .polling))
    else none
  | .poll c =>
    if (s.calls c).point = .polling ∧ s.reaped c then some (s.goto c .reaping) else none
  | .kill c raises =>
    if (s.calls c).point = .polling ∨ (s.calls c).point = .communicating ∧ (shape c).cancellable then
      some ((s.killOwn c raises).goto c (if raises then .leaving else .reaping))
    else none
  | .communicate c wait =>
    if (s.calls c).point = .communicating then s.wait c wait (some (s.goto c .killing)) else none
  | .reap c wait =>
    if (s.calls c).point = .reaping then
      s.wait c wait (if (shape c).streams then some (s.goto c .killing) else none)
    else none
  | .handlerKill c raises =>
    if (s.calls c).point = .killing then
      some ((s.killOwn c raises).goto c
        (if raises ∨ (shape c).streams then .leaving else .reaping))
    else none
  | .interrupt c =>
    if (s.calls c).point.interruptible then some (s.goto c .leaving) else none
  | .unregister c => if (s.calls c).point = .leaving then some (s.unregister c) else none
  | .exit p =>
    if (s.processes p).started then some (s.mark p { s.processes p with exited := true }) else none
  | .beginShutdown => match s.shutdown with
    | .pending => some { s with shuttingDown := true, shutdown := .killing s.activeProcesses }
    | _ => none
  | .shutdownKill raises => match s.shutdown with
    | .killing (p :: rest) =>
      some { (if (s.processes p).exited then s else s.kill p raises) with shutdown := .killing rest }
    | _ => none
  | .endShutdown => match s.shutdown with
    | .killing [] => some { s with shutdown := .returned }
    | _ => none

def State.new : State C P :=
  ⟨false, [], fun _ => ⟨false, false, false⟩, fun _ => ⟨.starting, none⟩, .pending⟩

/-- The process has exited or was sent a kill. -/
def Process.settled (process : Process) : Prop := process.exited = true ∨ process.killed = true

instance (process : Process) : Decidable process.settled :=
  inferInstanceAs (Decidable (_ ∨ _))

def State.settled (s : State C P) (c : C) : Prop :=
  ∀ p ∈ (s.calls c).process, (s.processes p).settled

instance (s : State C P) (c : C) : Decidable (s.settled c) :=
  inferInstanceAs (Decidable (∀ p ∈ (s.calls c).process, (s.processes p).settled))

/-- The process that `shutdown` kills next. -/
def State.nextKilled (s : State C P) : Option P :=
  match s.shutdown with
  | .killing (p :: _) => some p
  | _ => none

/-- A step that raises finds the process of its call exited or sent a kill. -/
def Careful (s : State C P) : Action C P → Prop
  | .startThreads c raises | .kill c raises | .handlerKill c raises => raises = true → s.settled c
  | .communicate c wait | .reap c wait => wait = .raised → s.settled c
  | .interrupt c => s.settled c
  | .shutdownKill raises => raises = true → ∀ p ∈ s.nextKilled, (s.processes p).settled
  | _ => True

instance (s : State C P) : ∀ a, Decidable (Careful s a)
  | .startThreads c raises | .kill c raises | .handlerKill c raises =>
    inferInstanceAs (Decidable (raises = true → s.settled c))
  | .communicate c wait | .reap c wait => inferInstanceAs (Decidable (wait = .raised → s.settled c))
  | .interrupt c => inferInstanceAs (Decidable (s.settled c))
  | .shutdownKill raises =>
    inferInstanceAs (Decidable (raises = true → ∀ p ∈ s.nextKilled, (s.processes p).settled))
  | .refuse _ | .start _ _ | .poll _ | .unregister _ | .exit _ | .beginShutdown | .endShutdown =>
    .isTrue trivial

/-- Every started process is registered or settled, and the shutdown misses none. -/
structure Inv (s : State C P) : Prop where
  owned : ∀ c p, (s.calls c).process = some p → (s.processes p).started = true
  fresh : ∀ c, (s.calls c).point = .starting → (s.calls c).process = none
  leaving : ∀ c, (s.calls c).point = .leaving → s.settled c
  active : ∀ p ∈ s.activeProcesses, (s.processes p).started = true
  registered : ∀ p, (s.processes p).started = true → p ∈ s.activeProcesses ∨ (s.processes p).settled
  down : s.shutdown ≠ .pending → s.shuttingDown = true
  killing : ∀ rest, s.shutdown = .killing rest → (∀ p ∈ rest, (s.processes p).started = true) ∧
    ∀ p, (s.processes p).started = true → p ∈ rest ∨ (s.processes p).settled
  returned : s.shutdown = .returned → ∀ p, (s.processes p).started = true → (s.processes p).settled

variable {shape : C → Shape} {s t : State C P} {c : C} {p : P}

omit [DecidableEq P] in
@[simp]
theorem goto_calls_self (point : Point) :
    (s.goto c point).calls c = { s.calls c with point := point } := by
  simp [State.goto, State.setCall]

omit [DecidableEq P] in
@[simp]
theorem goto_calls_other {c' : C} (h : c' ≠ c) (point : Point) :
    (s.goto c point).calls c' = s.calls c' := by
  simp [State.goto, State.setCall, h]

omit [DecidableEq P] in
theorem goto_process (c' : C) (point : Point) :
    ((s.goto c point).calls c').process = (s.calls c').process := by
  by_cases h : c' = c
  · subst h
    simp
  · rw [goto_calls_other h]

omit [DecidableEq P] in
theorem Inv.goto (hinv : Inv s) {point : Point} (hstart : point ≠ .starting)
    (hleave : point = .leaving → s.settled c) : Inv (s.goto c point) := by
  have hsettled : ∀ c', s.settled c' → (s.goto c point).settled c' := by
    intro c' h q hq
    rw [goto_process] at hq
    exact h q hq
  constructor
  · intro c' q hq
    rw [goto_process] at hq
    exact hinv.owned c' q hq
  · intro c' hpoint
    by_cases h : c' = c
    · subst h
      rw [goto_calls_self] at hpoint
      exact absurd hpoint hstart
    · rw [goto_calls_other h] at hpoint ⊢
      exact hinv.fresh c' hpoint
  · intro c' hpoint
    apply hsettled
    by_cases h : c' = c
    · subst h
      rw [goto_calls_self] at hpoint
      exact hleave hpoint
    · rw [goto_calls_other h] at hpoint
      exact hinv.leaving c' hpoint
  · exact hinv.active
  · exact hinv.registered
  · exact hinv.down
  · exact hinv.killing
  · exact hinv.returned

omit [DecidableEq C] in
/-- A process that is more settled than before keeps the invariant. -/
theorem Inv.mark (hinv : Inv s) {process : Process} (hstarted : process.started = true)
    (h : (s.processes p).started = true) (hsettled : (s.processes p).settled → process.settled) :
    Inv (s.mark p process) := by
  have hstart : ∀ q, ((s.mark p process).processes q).started = true ↔
      (s.processes q).started = true := by
    intro q
    by_cases hq : q = p
    · subst hq
      simp [State.mark, hstarted, h]
    · simp [State.mark, hq]
  have hkeep : ∀ q, (s.processes q).settled → ((s.mark p process).processes q).settled := by
    intro q hq
    by_cases hp : q = p
    · subst hp
      simpa [State.mark] using hsettled hq
    · simpa [State.mark, hp] using hq
  constructor
  · exact fun c q hq => (hstart q).mpr (hinv.owned c q hq)
  · exact hinv.fresh
  · exact fun c hpoint q hq => hkeep q (hinv.leaving c hpoint q hq)
  · exact fun q hq => (hstart q).mpr (hinv.active q hq)
  · intro q hq
    obtain hactive | hdone := hinv.registered q ((hstart q).mp hq)
    · exact .inl hactive
    · exact .inr (hkeep q hdone)
  · exact hinv.down
  · intro rest hrest
    obtain ⟨hall, hmissed⟩ := hinv.killing rest hrest
    refine ⟨fun q hq => (hstart q).mpr (hall q hq), ?_⟩
    intro q hq
    obtain hin | hdone := hmissed q ((hstart q).mp hq)
    · exact .inl hin
    · exact .inr (hkeep q hdone)
  · exact fun hret q hq => hkeep q (hinv.returned hret q ((hstart q).mp hq))

omit [DecidableEq C] in
theorem Inv.kill (hinv : Inv s) (h : (s.processes p).started = true) (raises : Bool) :
    Inv (s.kill p raises) := by
  cases raises with
  | true => exact hinv
  | false => exact hinv.mark h h (fun _ => .inr rfl)

omit [DecidableEq C] in
theorem Inv.killOwn (hinv : Inv s) (c : C) (raises : Bool) : Inv (s.killOwn c raises) := by
  cases hp : (s.calls c).process with
  | none => simpa only [State.killOwn, hp] using hinv
  | some p =>
    simp only [State.killOwn, hp]
    exact hinv.kill (hinv.owned c p hp) raises

omit [DecidableEq C] in
/-- After its kill, or where the kill was not needed, the process of a call is settled. -/
theorem settled_killOwn {raises : Bool} (h : raises = true → s.settled c) :
    (s.killOwn c raises).settled c := by
  intro p hp
  have hcall : (s.calls c).process = some p := by
    cases hq : (s.calls c).process with
    | none => simp [State.killOwn, hq] at hp
    | some q => cases raises <;> simpa [State.killOwn, hq, State.kill, State.mark] using hp
  cases raises with
  | true => simpa [State.killOwn, hcall, State.kill] using h rfl p hcall
  | false => simp [State.killOwn, hcall, State.kill, State.mark, Process.settled]

omit [DecidableEq C] [DecidableEq P] in
theorem settled_of_reaped (h : s.reaped c = true) : s.settled c := by
  intro p hp
  have hown : (s.calls c).process = some p := hp
  simp only [State.reaped, hown] at h
  exact .inl h

/-- A process that was never started is registered as it starts. -/
theorem Inv.register (hinv : Inv s) (hdown : s.shuttingDown = false)
    (hused : (s.processes p).started = false) {point : Point} (hstart : point ≠ .starting)
    (hleave : point ≠ .leaving) :
    Inv { (s.mark p ⟨true, false, false⟩).setCall c ⟨point, some p⟩ with
      activeProcesses := p :: s.activeProcesses } := by
  have hother : ∀ q, (s.processes q).started = true → q ≠ p := by
    intro q hq hqp
    rw [hqp, hused] at hq
    cases hq
  have hpending : s.shutdown = .pending := by
    by_contra hne
    rw [hinv.down hne] at hdown
    cases hdown
  constructor
  · intro c' q hq
    by_cases hc : c' = c
    · subst hc
      have hqp : p = q := by simpa [State.setCall] using hq
      simp [State.setCall, State.mark, hqp]
    · have howned := hinv.owned c' q (by simpa [State.setCall, State.mark, hc] using hq)
      simpa [State.setCall, State.mark, hother q howned] using howned
  · intro c' hpoint
    by_cases hc : c' = c
    · subst hc
      exact absurd (by simpa [State.setCall] using hpoint) hstart
    · have hfresh := hinv.fresh c' (by simpa [State.setCall, State.mark, hc] using hpoint)
      simpa [State.setCall, State.mark, hc] using hfresh
  · intro c' hpoint q hq
    by_cases hc : c' = c
    · subst hc
      exact absurd (by simpa [State.setCall] using hpoint) hleave
    · have hcall : (s.calls c').process = some q := by
        simpa [State.setCall, State.mark, hc] using hq
      have hsettled := hinv.leaving c' (by simpa [State.setCall, State.mark, hc] using hpoint) q hcall
      simpa [State.setCall, State.mark, hother q (hinv.owned c' q hcall)] using hsettled
  · intro q hq
    by_cases hqp : q = p
    · simp [State.setCall, State.mark, hqp]
    · obtain h | h := List.mem_cons.mp hq
      · exact absurd h hqp
      · simpa [State.setCall, State.mark, hqp] using hinv.active q h
  · intro q hq
    by_cases hqp : q = p
    · exact .inl (List.mem_cons.mpr (.inl hqp))
    · have hstarted : (s.processes q).started = true := by
        simpa [State.setCall, State.mark, hqp] using hq
      obtain hactive | hdone := hinv.registered q hstarted
      · exact .inl (List.mem_cons_of_mem _ hactive)
      · exact .inr (by simpa [State.setCall, State.mark, hqp] using hdone)
  · exact fun hne => absurd hpending hne
  · intro rest hrest
    have hkilling : s.shutdown = .killing rest := hrest
    rw [hpending] at hkilling
    cases hkilling
  · intro hret
    have hreturned : s.shutdown = .returned := hret
    rw [hpending] at hreturned
    cases hreturned

theorem Inv.start (hinv : Inv s) (hpoint : (s.calls c).point = .starting) (shape : Shape)
    {process : Option P} (h : s.start shape c process = some t) : Inv t := by
  unfold State.start at h
  have hnone := hinv.fresh c hpoint
  cases hdown : s.shuttingDown with
  | true =>
    simp only [hdown, if_true, Option.some.injEq] at h
    subst h
    exact hinv.goto (by simp) (by simp)
  | false =>
    simp only [hdown, Bool.false_eq_true, if_false] at h
    cases process with
    | none =>
      cases h
      exact hinv.goto (by simp) (fun _ p hp => by rw [hnone] at hp; cases hp)
    | some p =>
      by_cases hused : (s.processes p).started = true
      · simp [hused] at h
      · simp only [hused, Bool.false_eq_true, if_false, Option.some.injEq] at h
        subst h
        exact hinv.register hdown (by simpa using hused) (by cases shape.streams <;> simp)
          (by cases shape.streams <;> simp)

theorem Inv.unregister (hinv : Inv s) (hpoint : (s.calls c).point = .leaving) :
    Inv (s.unregister c) := by
  have hgoto : Inv (s.goto c .returned) := hinv.goto (by simp) (by simp)
  cases hp : (s.calls c).process with
  | none => simpa only [State.unregister, hp] using hgoto
  | some p =>
    simp only [State.unregister, hp]
    have hsettled := hinv.leaving c hpoint p hp
    refine ⟨hgoto.owned, hgoto.fresh, hgoto.leaving, ?_, ?_, hgoto.down, hgoto.killing,
      hgoto.returned⟩
    · exact fun q hq => hgoto.active q (List.mem_filter.mp hq).1
    · intro q hq
      by_cases hqp : q = p
      · subst hqp
        exact .inr hsettled
      · obtain hactive | hdone := hgoto.registered q hq
        · exact .inl (List.mem_filter.mpr ⟨hactive, by simpa using hqp⟩)
        · exact .inr hdone

omit [DecidableEq C] [DecidableEq P] in
/-- The shutdown goes on once the process before it is settled. -/
theorem Inv.pop (hinv : Inv s) {rest : List P} (hpoint : s.shutdown = .killing (p :: rest))
    (hsettled : (s.processes p).settled) : Inv { s with shutdown := .killing rest } := by
  obtain ⟨hall, hmissed⟩ := hinv.killing _ hpoint
  refine ⟨hinv.owned, hinv.fresh, hinv.leaving, hinv.active, hinv.registered, ?_, ?_, ?_⟩
  · exact fun _ => hinv.down (by simp [hpoint])
  · intro rest' hrest
    cases hrest
    refine ⟨fun q hq => hall q (List.mem_cons_of_mem _ hq), ?_⟩
    intro q hq
    obtain hin | hdone := hmissed q hq
    · obtain hqp | hqr := List.mem_cons.mp hin
      · exact .inr (hqp ▸ hsettled)
      · exact .inl hqr
    · exact .inr hdone
  · intro hret
    cases hret

omit [DecidableEq C] in
theorem Inv.shutdownKill (hinv : Inv s) {rest : List P} (hpoint : s.shutdown = .killing (p :: rest))
    {raises : Bool} (hcareful : raises = true → (s.processes p).settled) :
    Inv { (if (s.processes p).exited then s else s.kill p raises) with shutdown := .killing rest } := by
  have hdown : s.shuttingDown = true := hinv.down (by simp [hpoint])
  have hstarted : (s.processes p).started = true := (hinv.killing _ hpoint).1 p List.mem_cons_self
  by_cases hexited : (s.processes p).exited = true
  · rw [if_pos hexited]
    exact hinv.pop hpoint (.inl hexited)
  · rw [if_neg hexited]
    have hkill := hinv.kill hstarted raises
    cases raises with
    | true => exact hkill.pop hpoint (hcareful rfl)
    | false => exact hkill.pop hpoint (.inr (by simp [State.kill, State.mark]))

omit [DecidableEq C] [DecidableEq P] in
/-- The snapshot of `shutdown` holds every process that is not settled. -/
theorem Inv.begin (hinv : Inv s) :
    Inv { s with shuttingDown := true, shutdown := .killing s.activeProcesses } := by
  refine ⟨hinv.owned, hinv.fresh, hinv.leaving, hinv.active, hinv.registered, ?_, ?_, ?_⟩
  · exact fun _ => rfl
  · intro rest hrest
    cases hrest
    exact ⟨hinv.active, hinv.registered⟩
  · intro hret
    cases hret

omit [DecidableEq C] [DecidableEq P] in
theorem Inv.finish (hinv : Inv s) (hpoint : s.shutdown = .killing []) :
    Inv { s with shutdown := .returned } := by
  refine ⟨hinv.owned, hinv.fresh, hinv.leaving, hinv.active, hinv.registered, ?_, ?_, ?_⟩
  · exact fun _ => hinv.down (by simp [hpoint])
  · intro rest hrest
    cases hrest
  · intro _ p hp
    obtain hin | hdone := (hinv.killing _ hpoint).2 p hp
    · cases hin
    · exact hdone

omit [DecidableEq C] [DecidableEq P] in
theorem inv_new : Inv (State.new : State C P) := by
  constructor <;> simp [State.new]

omit [DecidableEq P] in
/-- A waiting call goes on to its finally block only with a settled process. -/
theorem Inv.wait (hinv : Inv s) {wait : Wait} {later : Option (State C P)}
    (hlater : later = some t → Inv t) (hcareful : wait = .raised → s.settled c)
    (h : s.wait c wait later = some t) : Inv t := by
  cases wait with
  | exited =>
    obtain ⟨hreaped, h⟩ := Option.ite_none_right_eq_some.mp h
    cases h
    exact hinv.goto (by simp) (fun _ => settled_of_reaped hreaped)
  | timeoutExpired => exact hlater h
  | raised =>
    cases h
    exact hinv.goto (by simp) (fun _ => hcareful rfl)

/-- A careful step keeps the invariant. -/
theorem Inv.next (hinv : Inv s) {a : Action C P} (hcareful : Careful s a)
    (h : step shape s a = some t) : Inv t := by
  cases a with
  | refuse c =>
    obtain ⟨-, h⟩ := Option.ite_none_right_eq_some.mp h
    cases h
    exact hinv.goto (by simp) (by simp)
  | start c process =>
    obtain ⟨hpoint, h⟩ := Option.ite_none_right_eq_some.mp h
    exact hinv.start hpoint (shape c) h
  | startThreads c raises =>
    obtain ⟨-, h⟩ := Option.ite_none_right_eq_some.mp h
    cases h
    cases raises with
    | true => exact hinv.goto (by simp) (fun _ => hcareful rfl)
    | false => exact hinv.goto (by simp) (by simp)
  | poll c =>
    obtain ⟨-, h⟩ := Option.ite_none_right_eq_some.mp h
    cases h
    exact hinv.goto (by simp) (by simp)
  | kill c raises =>
    obtain ⟨-, h⟩ := Option.ite_none_right_eq_some.mp h
    cases h
    have hkill := hinv.killOwn c raises
    have hsettled := settled_killOwn (c := c) hcareful
    exact hkill.goto (by cases raises <;> simp) (fun _ => hsettled)
  | communicate c wait =>
    obtain ⟨-, h⟩ := Option.ite_none_right_eq_some.mp h
    refine hinv.wait (c := c) ?_ hcareful h
    intro hlater
    cases hlater
    exact hinv.goto (by simp) (by simp)
  | reap c wait =>
    obtain ⟨-, h⟩ := Option.ite_none_right_eq_some.mp h
    refine hinv.wait (c := c) ?_ hcareful h
    intro hlater
    obtain ⟨-, hlater⟩ := Option.ite_none_right_eq_some.mp hlater
    cases hlater
    exact hinv.goto (by simp) (by simp)
  | handlerKill c raises =>
    obtain ⟨-, h⟩ := Option.ite_none_right_eq_some.mp h
    cases h
    have hkill := hinv.killOwn c raises
    have hsettled := settled_killOwn (c := c) hcareful
    refine hkill.goto ?_ (fun _ => hsettled)
    split <;> simp
  | interrupt c =>
    obtain ⟨-, h⟩ := Option.ite_none_right_eq_some.mp h
    cases h
    exact hinv.goto (by simp) (fun _ => hcareful)
  | unregister c =>
    obtain ⟨hpoint, h⟩ := Option.ite_none_right_eq_some.mp h
    cases h
    exact hinv.unregister hpoint
  | exit p =>
    obtain ⟨hstarted, h⟩ := Option.ite_none_right_eq_some.mp h
    cases h
    exact hinv.mark hstarted hstarted (fun _ => .inl rfl)
  | beginShutdown =>
    cases hdown : s.shutdown with
    | pending =>
      simp only [step, hdown, Option.some.injEq] at h
      subst h
      exact hinv.begin
    | killing rest => simp [step, hdown] at h
    | returned => simp [step, hdown] at h
  | shutdownKill raises =>
    cases hdown : s.shutdown with
    | pending => simp [step, hdown] at h
    | killing rest =>
      cases rest with
      | nil => simp [step, hdown] at h
      | cons p rest =>
        simp only [step, hdown, Option.some.injEq] at h
        subst h
        exact hinv.shutdownKill hdown (fun hraises => hcareful hraises p (by simp [State.nextKilled, hdown]))
    | returned => simp [step, hdown] at h
  | endShutdown =>
    cases hdown : s.shutdown with
    | pending => simp [step, hdown] at h
    | killing rest =>
      cases rest with
      | nil =>
        simp only [step, hdown, Option.some.injEq] at h
        subst h
        exact hinv.finish hdown
      | cons p rest => simp [step, hdown] at h
    | returned => simp [step, hdown] at h

/-- The step neither registers, starts nor forgets a process. -/
def Frame (s t : State C P) : Prop :=
  t.activeProcesses = s.activeProcesses ∧ ∀ p, (t.processes p).started = (s.processes p).started

omit [DecidableEq P] in
theorem frame_goto (point : Point) : Frame s (s.goto c point) :=
  ⟨rfl, fun _ => rfl⟩

omit [DecidableEq C] in
theorem frame_mark {process : Process} (h : process.started = (s.processes p).started) :
    Frame s (s.mark p process) := by
  refine ⟨rfl, fun q => ?_⟩
  by_cases hq : q = p
  · subst hq
    simpa [State.mark] using h
  · simp [State.mark, hq]

omit [DecidableEq C] in
theorem frame_kill (raises : Bool) : Frame s (s.kill p raises) := by
  cases raises with
  | true => exact ⟨rfl, fun _ => rfl⟩
  | false => exact frame_mark rfl

theorem frame_killOwn_goto (raises : Bool) (point : Point) :
    Frame s ((s.killOwn c raises).goto c point) := by
  cases hp : (s.calls c).process with
  | none =>
    simp only [State.killOwn, hp]
    exact frame_goto point
  | some p =>
    simp only [State.killOwn, hp]
    exact frame_kill raises

omit [DecidableEq P] in
theorem frame_wait {wait : Wait} {later : Option (State C P)} (hlater : later = some t → Frame s t)
    (h : s.wait c wait later = some t) : Frame s t := by
  cases wait with
  | exited =>
    obtain ⟨-, h⟩ := Option.ite_none_right_eq_some.mp h
    cases h
    exact frame_goto _
  | timeoutExpired => exact hlater h
  | raised =>
    cases h
    exact frame_goto _

/-- Only a start or an unregistration changes the active set. -/
theorem step_frame {a : Action C P} (h : step shape s a = some t) :
    (∃ c process, a = .start c process) ∨ (∃ c, a = .unregister c) ∨ Frame s t := by
  cases a with
  | start c process => exact .inl ⟨c, process, rfl⟩
  | unregister c => exact .inr (.inl ⟨c, rfl⟩)
  | refuse c | startThreads c raises | poll c | interrupt c =>
    obtain ⟨-, h⟩ := Option.ite_none_right_eq_some.mp h
    cases h
    exact .inr (.inr (frame_goto _))
  | kill c raises | handlerKill c raises =>
    obtain ⟨-, h⟩ := Option.ite_none_right_eq_some.mp h
    cases h
    exact .inr (.inr (frame_killOwn_goto raises _))
  | communicate c wait =>
    obtain ⟨-, h⟩ := Option.ite_none_right_eq_some.mp h
    refine .inr (.inr (frame_wait (c := c) ?_ h))
    intro hlater
    cases hlater
    exact frame_goto _
  | reap c wait =>
    obtain ⟨-, h⟩ := Option.ite_none_right_eq_some.mp h
    refine .inr (.inr (frame_wait (c := c) ?_ h))
    intro hlater
    obtain ⟨-, hlater⟩ := Option.ite_none_right_eq_some.mp hlater
    cases hlater
    exact frame_goto _
  | exit p =>
    obtain ⟨-, h⟩ := Option.ite_none_right_eq_some.mp h
    cases h
    exact .inr (.inr (frame_mark rfl))
  | beginShutdown | endShutdown =>
    simp only [step] at h
    split at h
    · cases h
      exact .inr (.inr ⟨rfl, fun _ => rfl⟩)
    · cases h
  | shutdownKill raises =>
    simp only [step] at h
    split at h
    · cases h
      refine .inr (.inr ?_)
      split
      · exact ⟨rfl, fun _ => rfl⟩
      · exact frame_kill raises
    · cases h

theorem mem_start {shape : Shape} {process : Option P} (h : s.start shape c process = some t)
    (hin : p ∈ s.activeProcesses) : p ∈ t.activeProcesses := by
  unfold State.start at h
  split at h
  · cases h
    exact hin
  · split at h
    · cases h
      exact hin
    · obtain ⟨-, h⟩ := Option.ite_none_left_eq_some.mp h
      cases h
      exact List.mem_cons_of_mem _ hin

/-- A process leaves the active set only settled. -/
theorem removed_settled (hinv : Inv s) {a : Action C P} (h : step shape s a = some t)
    (hin : p ∈ s.activeProcesses) (hout : p ∉ t.activeProcesses) : (t.processes p).settled := by
  obtain ⟨c, process, ha⟩ | ⟨c, ha⟩ | hframe := step_frame h
  · subst ha
    obtain ⟨-, h⟩ := Option.ite_none_right_eq_some.mp h
    exact absurd (mem_start h hin) hout
  · subst ha
    obtain ⟨hpoint, h⟩ := Option.ite_none_right_eq_some.mp h
    cases h
    cases hown : (s.calls c).process with
    | none =>
      simp only [State.unregister, hown] at hout
      exact absurd hin hout
    | some q =>
      simp only [State.unregister, hown] at hout ⊢
      by_cases hpq : p = q
      · exact hpq ▸ hinv.leaving c hpoint q hown
      · exact absurd (List.mem_filter.mpr ⟨hin, by simpa using hpq⟩) hout
  · rw [hframe.1] at hout
    exact absurd hin hout

/-- Once the flag is set nothing is started. -/
theorem started_after_flag {a : Action C P} (hdown : s.shuttingDown = true)
    (h : step shape s a = some t) (p : P) : (t.processes p).started = (s.processes p).started := by
  obtain ⟨c, process, ha⟩ | ⟨c, ha⟩ | hframe := step_frame h
  · subst ha
    obtain ⟨-, h⟩ := Option.ite_none_right_eq_some.mp h
    simp only [State.start, hdown, if_true, Option.some.injEq] at h
    rw [← h]
    rfl
  · subst ha
    obtain ⟨-, h⟩ := Option.ite_none_right_eq_some.mp h
    cases h
    cases hown : (s.calls c).process with
    | none => simp only [State.unregister, hown, (frame_goto (s := s) _).2]
    | some q => simp only [State.unregister, hown, (frame_goto (s := s) _).2]
  · exact hframe.2 p

/-- While every step that raises finds its process settled, no process is lost. -/
theorem ownership_complete {as : List (Action C P)} (hcareful : Along (step shape) Careful .new as)
    (h : exec (step shape) .new as = some s) :
    (∀ p, (s.processes p).started = true → p ∈ s.activeProcesses ∨ (s.processes p).settled) ∧
      (s.shutdown = .returned → ∀ p, (s.processes p).started = true → (s.processes p).settled) ∧
      ∀ a t, step shape s a = some t →
        (∀ p ∈ s.activeProcesses, p ∉ t.activeProcesses → (t.processes p).settled) ∧
        (s.shuttingDown = true → ∀ p, (t.processes p).started = (s.processes p).started) := by
  have hinv : Inv s := exec_along Inv (fun _ _ _ hinv hcareful h => hinv.next hcareful h)
    inv_new hcareful h
  refine ⟨hinv.registered, hinv.returned, ?_⟩
  intro a t hnext
  exact ⟨fun p hin hout => removed_settled hinv hnext hin hout,
    fun hdown p => started_after_flag hdown hnext p⟩

/-- A finished and a cancelled call, and one that runs until the shutdown. -/
def threeCalls : List (Action Nat Nat) :=
  [.start 0 (some 0), .start 1 (some 1), .startThreads 1 false, .start 2 (some 2), .exit 0,
    .communicate 0 .exited, .unregister 0, .kill 1 false, .exit 1, .reap 1 .exited, .unregister 1,
    .beginShutdown, .start 3 (some 3), .shutdownKill false, .endShutdown]

def threeShapes : Nat → Shape
  | 0 => run
  | 1 => runStreaming
  | _ => runBinaryOutput

theorem ownership_complete_threeCalls :
    ∃ s, exec (step threeShapes) .new threeCalls = some s ∧ s.shutdown = .returned ∧
      (s.processes 2).settled := by
  have hcareful : Along (step threeShapes) Careful .new threeCalls := by decide +kernel
  have hrun : (exec (step threeShapes) .new threeCalls).any (fun s =>
      s.shutdown = .returned ∧ (s.processes 2).started = true) = true := by decide +kernel
  obtain ⟨s, hs, hend⟩ := (Option.any_eq_true _ _).mp hrun
  obtain ⟨hreturned, hstarted⟩ := of_decide_eq_true hend
  exact ⟨s, hs, hreturned, (ownership_complete hcareful hs).2.1 hreturned 2 hstarted⟩

/-- The second reader thread cannot be started, and `RuntimeError` is not caught. -/
def threadFailure : List (Action Nat Nat) :=
  [.start 0 (some 0), .startThreads 0 true, .unregister 0, .beginShutdown, .endShutdown]

theorem not_ownership_complete :
    ¬ ∀ (shape : Nat → Shape) (as : List (Action Nat Nat)) (s : State Nat Nat),
      exec (step shape) .new as = some s → s.shutdown = .returned →
        ∀ p, (s.processes p).started = true → (s.processes p).settled := by
  intro h
  have hrun : (exec (step (fun _ => runStreaming)) .new threadFailure).any (fun s =>
      s.shutdown = .returned ∧ s.processes 0 = ⟨true, false, false⟩) = true := by decide +kernel
  obtain ⟨s, hs, hend⟩ := (Option.any_eq_true _ _).mp hrun
  obtain ⟨hreturned, hprocess⟩ := of_decide_eq_true hend
  have hsettled := h _ _ s hs hreturned 0 (by rw [hprocess])
  rw [hprocess] at hsettled
  simp [Process.settled] at hsettled

end OpenAdb.Commands.Ownership
