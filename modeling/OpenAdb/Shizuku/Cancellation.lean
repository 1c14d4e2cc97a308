import OpenAdb.Lib.PyText
import OpenAdb.Lib.Runs
import Mathlib.Data.Finset.Basic

namespace OpenAdb.Shizuku.Cancellation

open OpenAdb.Lib.PyText OpenAdb.Lib.Runs

variable {C P : Type} [DecidableEq C]

def isValidRequestId (value : Text) : Bool :=
  value.length = 32 && value.all (fun c => c.isDigit || ('a' ≤ c && c ≤ 'f'))

inductive ResultState
  | cancelled | timedOut | complete | failed
  deriving DecidableEq

/-- The fields of a result that cancellation decides. -/
structure Result where
  requestId : Text
  state : ResultState
  exitCode : Int
  timedOut : Bool
  cancelled : Bool
  terminationFailed : Bool
  deriving DecidableEq

/-- Where a call of `execute` stands; `finishing none` has a Throwable on its way. -/
inductive Point
  | idle | preparing | checking | starting | started | launching | polling | rechecking | stopping
  | cleaning | removing | publishing
  | finishing (published : Option Bool)
  | returned (published : Bool)
  | thrown
  | rejected
  deriving DecidableEq

structure Call (P : Type) where
  point : Point
  exitCode : Int
  timedOut : Bool
  cancelled : Bool
  terminationFailed : Bool
  process : Option P

def Call.new : Call P := ⟨.idle, -1, false, false, false, none⟩

/-- The steps of a call, with what it meets outside of the lock: the cancel
file, the process and its exit, the clock, the pumps and the result file. -/
inductive CallAction (P : Type)
  | execute
  | prepare (accepted : Bool)
  | check (cancelFile : Bool)
  | start (process : Option P)
  | put
  | launch
  | poll (cancelFile : Bool) (exitValue : Option Int) (expired : Bool)
  | recheck (cancelFile : Bool)
  | stop (terminated : Bool) (exitValue : Option Int)
  | fail
  | clean (terminated : Bool)
  | escape
  | remove
  | publish (outputFailure : Bool) (written : Bool)
  | finish

def Point.insideTry : Point → Bool
  | .preparing | .checking | .starting | .started | .launching | .polling | .rechecking
  | .stopping => true
  | _ => false

def Point.outsideTry : Point → Bool
  | .preparing | .cleaning | .removing | .publishing => true
  | _ => false

/-- Between the registration and the end of the finally block. -/
def Point.busy : Point → Bool
  | .idle | .returned _ | .thrown | .rejected => false
  | _ => true

/-- The result, if any, is written. -/
def Point.late : Point → Bool
  | .finishing _ | .returned _ | .thrown => true
  | _ => false

def Call.finalExitCode (call : Call P) (outputFailure : Bool) : Int :=
  if outputFailure && !call.cancelled && !call.timedOut && call.exitCode = 0 then -1
  else call.exitCode

def writeResult (requestId : Text) (call : Call P) (exitCode : Int) : Result where
  requestId := requestId
  state := if call.cancelled then .cancelled
    else if call.timedOut then .timedOut
    else if 0 ≤ exitCode then .complete else .failed
  exitCode := exitCode
  timedOut := call.timedOut
  cancelled := call.cancelled
  terminationFailed := call.terminationFailed

/-- One step of a call after its registration; `marked` is what `isCancelled`
finds in `cancelledRequests`. -/
def Call.step (marked : Bool) (call : Call P) : CallAction P → Option (Call P)
  | .execute => none
  | .prepare accepted =>
    if call.point = .preparing then
      some { call with point := if accepted then .checking else .cleaning }
    else none
  | .check cancelFile =>
    if call.point = .checking then
      if marked || cancelFile then some { call with cancelled := true, point := .cleaning }
      else some { call with point := .starting }
    else none
  | .start process =>
    if call.point = .starting then
      some { call with process := process, point := if process.isSome then .started else .cleaning }
    else none
  | .put => if call.point = .started then some { call with point := .launching } else none
  | .launch => if call.point = .launching then some { call with point := .polling } else none
  | .poll cancelFile exitValue expired =>
    if call.point = .polling then
      if marked || cancelFile then some { call with cancelled := true, point := .rechecking }
      else match exitValue with
        | some exitCode => some { call with exitCode := exitCode, point := .rechecking }
        | none => some { call with
            timedOut := expired
            point := if expired then .rechecking else .polling }
    else none
  | .recheck cancelFile =>
    if call.point = .rechecking then
      some { call with cancelled := call.cancelled || (marked || cancelFile), point := .stopping }
    else none
  | .stop terminated exitValue =>
    if call.point = .stopping then
      if call.cancelled || call.timedOut then
        some { call with
          terminationFailed := !terminated
          exitCode := exitValue.getD (-1)
          point := .cleaning }
      else some { call with point := .cleaning }
    else none
  | .fail => if call.point.insideTry then some { call with point := .cleaning } else none
  | .clean terminated =>
    if call.point = .cleaning then
      some { call with
        terminationFailed := if call.process.isSome && call.exitCode < 0 && !call.terminationFailed
          then !terminated else call.terminationFailed
        point := .removing }
    else none
  | .escape => if call.point.outsideTry then some { call with point := .finishing none } else none
  | .remove => if call.point = .removing then some { call with point := .publishing } else none
  | .publish outputFailure written =>
    if call.point = .publishing then
      some { call with
        exitCode := call.finalExitCode outputFailure
        point := .finishing (some written) }
    else none
  | .finish => match call.point with
    | .finishing (some published) => some { call with point := .returned published }
    | .finishing none => some { call with point := .thrown }
    | _ => none

/-- The service with its calls; each call of `execute` has its own name, so the
same request may be executed again by another call. -/
structure Service (C P : Type) where
  runningRequests : Finset Text
  cancelledRequests : Finset Text
  activeProcesses : List (Text × P)
  calls : C → Call P
  published : List (C × Result)
  exited : Bool

def Service.new : Service C P := ⟨∅, ∅, [], fun _ => Call.new, [], false⟩

inductive Action (C P : Type)
  | call (c : C) (a : CallAction P)
  | cancel (requestId : Text)
  | destroy
  | exit

def removeKey (requestId : Text) (processes : List (Text × P)) : List (Text × P) :=
  processes.filter (fun entry => entry.1 ≠ requestId)

def Service.setCall (s : Service C P) (c : C) (call : Call P) : Service C P :=
  { s with calls := Function.update s.calls c call }

/-- The critical sections of `execute` after the registration. -/
def Service.touch (s : Service C P) (c : C) (requestId : Text) (call : Call P) :
    CallAction P → Service C P
  | .put => match call.process with
    | some process =>
      { s with activeProcesses := (requestId, process) :: removeKey requestId s.activeProcesses }
    | none => s
  | .remove => { s with activeProcesses := removeKey requestId s.activeProcesses }
  | .publish outputFailure written =>
    if written then { s with published :=
      (c, writeResult requestId call (call.finalExitCode outputFailure)) :: s.published }
    else s
  | .finish => { s with
      activeProcesses := removeKey requestId s.activeProcesses
      runningRequests := s.runningRequests.erase requestId
      cancelledRequests := s.cancelledRequests.erase requestId }
  | _ => s

def Service.execute (s : Service C P) (c : C) (requestId : Text) : Option (Service C P) :=
  if (s.calls c).point = .idle then
    if !isValidRequestId requestId then some (s.setCall c { s.calls c with point := .thrown })
    else if requestId ∈ s.runningRequests then
      some (s.setCall c { s.calls c with point := .rejected })
    else some { s.setCall c { s.calls c with point := .preparing } with
      runningRequests := insert requestId s.runningRequests }
  else none

/-- One step of the service; after `System.exit` there is none. -/
def step (request : C → Text) (s : Service C P) (a : Action C P) : Option (Service C P) :=
  if s.exited then none
  else match a with
  | .call c .execute => s.execute c (request c)
  | .call c a =>
    let marked := decide (request c ∈ s.cancelledRequests)
    ((s.calls c).step marked a).map fun call => (s.touch c (request c) (s.calls c) a).setCall c call
  | .cancel requestId =>
    if isValidRequestId requestId && requestId ∈ s.runningRequests then
      some { s with cancelledRequests := insert requestId s.cancelledRequests }
    else some s
  | .destroy => some { s with
      cancelledRequests := s.cancelledRequests ∪ s.runningRequests ∪
        (s.activeProcesses.map Prod.fst).toFinset }
  | .exit => some { s with exited := true }

section Steps

variable {marked : Bool} {call next : Call P} {a : CallAction P}

theorem Call.step_busy (h : call.step marked a = some next) : call.point.busy = true := by
  cases hpoint : call.point <;> cases a <;> simp_all [Call.step, Point.busy, Point.insideTry,
    Point.outsideTry]

theorem Call.step_busy_next (h : call.step marked a = some next) (ha : a ≠ .finish) :
    next.point.busy = true := by
  cases a with
  | execute => cases h
  | finish => exact absurd rfl ha
  | poll cancelFile exitValue expired =>
    simp only [Call.step] at h
    split_ifs at h <;> cases exitValue <;> cases h <;> rfl
  | _ =>
    simp only [Call.step] at h
    split_ifs at h <;> cases h <;> rfl

theorem Call.step_finish (h : call.step marked .finish = some next) :
    next.point.busy = false ∧ next.cancelled = call.cancelled ∧ next.point.late = true := by
  cases hpoint : call.point with
  | finishing published =>
    cases published <;> simp only [Call.step, hpoint, Option.some.injEq] at h <;> subst h <;>
      exact ⟨rfl, rfl, rfl⟩
  | _ => simp [Call.step, hpoint] at h

/-- No step withdraws the cancellation of a call. -/
theorem Call.step_cancelled (h : call.step marked a = some next) (hc : call.cancelled = true) :
    next.cancelled = true := by
  cases a with
  | execute => cases h
  | finish => rw [(Call.step_finish h).2.1, hc]
  | poll cancelFile exitValue expired =>
    simp only [Call.step] at h
    split_ifs at h <;> cases exitValue <;> cases h <;> first | rfl | exact hc
  | _ =>
    simp only [Call.step] at h
    split_ifs at h <;> cases h <;> simp [hc]

theorem Call.step_recheck {cancelFile : Bool} (h : call.step true (.recheck cancelFile) = some next) :
    call.point = .rechecking ∧ next.cancelled = true := by
  simp only [Call.step] at h
  split_ifs at h with hpoint
  cases h
  exact ⟨hpoint, by simp⟩

theorem Call.step_late (h : call.step marked a = some next) (hlate : call.point.late = true) :
    next.point.late = true := by
  cases a with
  | finish => exact (Call.step_finish h).2.2
  | _ => cases hpoint : call.point <;> simp_all [Call.step, Point.late, Point.insideTry,
      Point.outsideTry]

theorem Call.step_publish {outputFailure written : Bool}
    (h : call.step marked (.publish outputFailure written) = some next) :
    call.point = .publishing ∧ next.point.late = true ∧ next.cancelled = call.cancelled := by
  simp only [Call.step] at h
  split_ifs at h with hpoint
  cases h
  exact ⟨hpoint, rfl, rfl⟩

end Steps

theorem writeResult_cancelled (requestId : Text) {call : Call P} (exitCode : Int)
    (h : call.cancelled = true) : (writeResult requestId call exitCode).cancelled = true ∧
      (writeResult requestId call exitCode).state = .cancelled := by
  simp [writeResult, h]

theorem writeResult_complete (requestId : Text) (call : Call P) (exitCode : Int)
    (h : (writeResult requestId call exitCode).state = .complete) :
    (writeResult requestId call exitCode).cancelled = false := by
  cases hc : call.cancelled with
  | false => exact hc
  | true => simp [writeResult, hc] at h

/-- What the lock-protected sections keep, and what a published result says. -/
structure Inv (request : C → Text) (s : Service C P) : Prop where
  valid : ∀ id ∈ s.runningRequests, isValidRequestId id = true
  running : ∀ c, (s.calls c).point.busy = true → request c ∈ s.runningRequests
  unique : ∀ c c', (s.calls c).point.busy = true → (s.calls c').point.busy = true →
    request c = request c' → c = c'
  marked : ∀ id ∈ s.cancelledRequests, id ∈ s.runningRequests
  active : ∀ entry ∈ s.activeProcesses, entry.1 ∈ s.runningRequests
  late : ∀ entry ∈ s.published, (s.calls entry.1).point.late = true
  honest : ∀ entry ∈ s.published, entry.2.state = .complete → entry.2.cancelled = false

variable {request : C → Text} {s t : Service C P} {c : C} {a : CallAction P}

@[simp]
theorem setCall_self (call : Call P) : (s.setCall c call).calls c = call := by
  simp [Service.setCall]

@[simp]
theorem setCall_other {c' : C} (h : c' ≠ c) (call : Call P) :
    (s.setCall c call).calls c' = s.calls c' := by
  simp [Service.setCall, h]

omit [DecidableEq C] in
theorem mem_removeKey {id : Text} {entries : List (Text × P)} {entry : Text × P} :
    entry ∈ removeKey id entries ↔ entry ∈ entries ∧ entry.1 ≠ id := by
  simp [removeKey]

theorem step_call (ha : a ≠ .execute) (h : step request s (.call c a) = some t) :
    s.exited = false ∧ ∃ next, (s.calls c).step (decide (request c ∈ s.cancelledRequests)) a =
      some next ∧ t = (s.touch c (request c) (s.calls c) a).setCall c next := by
  cases hexit : s.exited with
  | true => simp [step, hexit] at h
  | false =>
    refine ⟨rfl, ?_⟩
    cases a with
    | execute => exact absurd rfl ha
    | _ =>
      simp only [step, hexit, Bool.false_eq_true, if_false, Option.map_eq_some_iff] at h
      obtain ⟨next, hnext, rfl⟩ := h
      exact ⟨next, hnext, rfl⟩

omit [DecidableEq C] in
theorem touch_calls (id : Text) (call : Call P) : (s.touch c id call a).calls = s.calls := by
  cases a with
  | put => cases hp : call.process <;> simp [Service.touch, hp]
  | publish outputFailure written => cases written <;> rfl
  | _ => rfl

omit [DecidableEq C] in
theorem touch_sets (id : Text) (call : Call P) (ha : a ≠ .finish) :
    (s.touch c id call a).runningRequests = s.runningRequests ∧
      (s.touch c id call a).cancelledRequests = s.cancelledRequests ∧
      ∀ entry ∈ (s.touch c id call a).activeProcesses, entry ∈ s.activeProcesses ∨ entry.1 = id := by
  cases a with
  | finish => exact absurd rfl ha
  | put =>
    cases hp : call.process with
    | none =>
      simp only [Service.touch, hp]
      exact ⟨trivial, trivial, fun entry h => .inl h⟩
    | some process =>
      refine ⟨by simp [Service.touch, hp], by simp [Service.touch, hp], ?_⟩
      simp only [Service.touch, hp, List.forall_mem_cons]
      exact ⟨.inr trivial, fun entry h => .inl (mem_removeKey.mp h).1⟩
  | remove => exact ⟨rfl, rfl, fun entry h => .inl (mem_removeKey.mp h).1⟩
  | publish outputFailure written => cases written <;> exact ⟨rfl, rfl, fun entry h => .inl h⟩
  | _ => exact ⟨rfl, rfl, fun entry h => .inl h⟩

omit [DecidableEq C] in
theorem touch_published (id : Text) (call : Call P) {entry : C × Result}
    (h : entry ∈ (s.touch c id call a).published) : entry ∈ s.published ∨
      ∃ outputFailure written, a = .publish outputFailure written ∧
        entry = (c, writeResult id call (call.finalExitCode outputFailure)) := by
  cases a with
  | put => cases hp : call.process <;> simp only [Service.touch, hp] at h <;> exact .inl h
  | publish outputFailure written =>
    cases written with
    | false => exact .inl h
    | true =>
      obtain h | h := List.mem_cons.mp h
      · exact .inr ⟨outputFailure, true, rfl, h⟩
      · exact .inl h
  | _ => exact .inl h

omit [DecidableEq C] in
theorem inv_new : Inv request (Service.new : Service C P) where
  valid id h := absurd h (Finset.notMem_empty id)
  running c h := by cases h
  unique c c' h := by cases h
  marked id h := absurd h (Finset.notMem_empty id)
  active entry h := by cases h
  late entry h := by cases h
  honest entry h := by cases h

/-- A call that turns from one idle point to another leaves everything else as it is. -/
theorem inv_setCall (hinv : Inv request s) {next : Call P} (hidle : (s.calls c).point = .idle)
    (hnext : next.point.busy = false) : Inv request (s.setCall c next) := by
  have hother : ∀ c', ((s.setCall c next).calls c').point.busy = true → c' ≠ c := by
    rintro c' hc' rfl
    rw [setCall_self, hnext] at hc'
    cases hc'
  constructor
  · exact hinv.valid
  · intro c' hc'
    have hne := hother c' hc'
    rw [setCall_other hne] at hc'
    exact hinv.running c' hc'
  · intro c' c'' hc' hc''
    have hne := hother c' hc'
    have hne' := hother c'' hc''
    rw [setCall_other hne] at hc'
    rw [setCall_other hne'] at hc''
    exact hinv.unique c' c'' hc' hc''
  · exact hinv.marked
  · exact hinv.active
  · intro entry hentry
    have hlate := hinv.late entry hentry
    have hne : entry.1 ≠ c := by
      rintro rfl
      rw [hidle] at hlate
      cases hlate
    rwa [setCall_other hne]
  · exact hinv.honest

theorem inv_execute (hinv : Inv request s) (h : s.execute c (request c) = some t) :
    Inv request t := by
  unfold Service.execute at h
  split_ifs at h with hidle hvalid hrunning
  · cases h
    exact inv_setCall hinv hidle rfl
  · cases h
    exact inv_setCall hinv hidle rfl
  · cases h
    have hfree : ∀ c', (s.calls c').point.busy = true → request c' ≠ request c := by
      intro c' hc' heq
      exact hrunning (heq ▸ hinv.running c' hc')
    constructor
    · intro id hid
      obtain rfl | hid := Finset.mem_insert.mp hid
      · simpa using hvalid
      · exact hinv.valid id hid
    · intro c' hc'
      by_cases hc : c' = c
      · rw [hc]
        exact Finset.mem_insert_self _ _
      · simp only [setCall_other hc] at hc'
        exact Finset.mem_insert_of_mem (hinv.running c' hc')
    · intro c' c'' hc' hc'' heq
      by_cases hc : c' = c <;> by_cases hd : c'' = c
      · rw [hc, hd]
      · simp only [setCall_other hd] at hc''
        exact absurd (heq.symm.trans (by rw [hc])) (hfree c'' hc'')
      · simp only [setCall_other hc] at hc'
        exact absurd (heq.trans (by rw [hd])) (hfree c' hc')
      · simp only [setCall_other hc] at hc'
        simp only [setCall_other hd] at hc''
        exact hinv.unique c' c'' hc' hc'' heq
    · exact fun id hid => Finset.mem_insert_of_mem (hinv.marked id hid)
    · exact fun entry hentry => Finset.mem_insert_of_mem (hinv.active entry hentry)
    · intro entry hentry
      have hlate := hinv.late entry hentry
      have hne : entry.1 ≠ c := by
        rintro rfl
        rw [hidle] at hlate
        cases hlate
      simpa only [setCall_other hne] using hlate
    · exact hinv.honest

theorem late_step (hinv : Inv request s) {next : Call P}
    (hnext : (s.calls c).step (decide (request c ∈ s.cancelledRequests)) a = some next) :
    ∀ entry ∈ ((s.touch c (request c) (s.calls c) a).setCall c next).published,
      (((s.touch c (request c) (s.calls c) a).setCall c next).calls entry.1).point.late = true := by
  intro entry hentry
  by_cases hc : entry.1 = c
  · rw [hc, setCall_self]
    obtain hold | ⟨outputFailure, written, rfl, -⟩ := touch_published _ _ hentry
    · have hlate := hinv.late entry hold
      rw [hc] at hlate
      exact Call.step_late hnext hlate
    · exact (Call.step_publish hnext).2.1
  · rw [setCall_other hc, touch_calls]
    obtain hold | ⟨outputFailure, written, -, hnew⟩ := touch_published _ _ hentry
    · exact hinv.late entry hold
    · exact absurd (congrArg Prod.fst hnew) hc

omit [DecidableEq C] in
theorem honest_step (hinv : Inv request s) :
    ∀ entry ∈ (s.touch c (request c) (s.calls c) a).published,
      entry.2.state = .complete → entry.2.cancelled = false := by
  intro entry hentry
  obtain hold | ⟨outputFailure, written, -, rfl⟩ := touch_published _ _ hentry
  · exact hinv.honest entry hold
  · exact writeResult_complete _ _ _

theorem inv_step (hinv : Inv request s) (ha : a ≠ .execute) (hf : a ≠ .finish)
    (h : step request s (.call c a) = some t) : Inv request t := by
  obtain ⟨-, next, hnext, rfl⟩ := step_call ha h
  have hbusy := Call.step_busy hnext
  have hbusy' := Call.step_busy_next hnext hf
  obtain ⟨hrun, hmark, hactive⟩ := touch_sets (s := s) (c := c) (request c) (s.calls c) hf
  have hcalls := touch_calls (s := s) (c := c) (a := a) (request c) (s.calls c)
  have hsame : ∀ c', (((s.touch c (request c) (s.calls c) a).setCall c next).calls c').point.busy =
      (s.calls c').point.busy := by
    intro c'
    by_cases hc : c' = c
    · subst hc
      rw [setCall_self, hbusy, hbusy']
    · rw [setCall_other hc, hcalls]
  constructor
  · intro id hid
    exact hinv.valid id (by rwa [← hrun])
  · intro c' hc'
    rw [hsame] at hc'
    have := hinv.running c' hc'
    rwa [← hrun] at this
  · intro c' c'' hc' hc''
    rw [hsame] at hc' hc''
    exact hinv.unique c' c'' hc' hc''
  · intro id hid
    have := hinv.marked id (by rwa [← hmark])
    rwa [← hrun] at this
  · intro entry hentry
    have : entry.1 ∈ s.runningRequests := by
      obtain hold | hnew := hactive entry hentry
      · exact hinv.active entry hold
      · rw [hnew]
        exact hinv.running c hbusy
    rwa [← hrun] at this
  · exact late_step hinv hnext
  · exact honest_step hinv

theorem inv_finish (hinv : Inv request s) (h : step request s (.call c .finish) = some t) :
    Inv request t := by
  obtain ⟨-, next, hnext, rfl⟩ := step_call (by simp) h
  have hbusy := Call.step_busy hnext
  obtain ⟨hdone, -⟩ := Call.step_finish hnext
  have hother : ∀ c', (((s.touch c (request c) (s.calls c) .finish).setCall c next).calls
      c').point.busy = true → c' ≠ c ∧ (s.calls c').point.busy = true ∧ request c' ≠ request c := by
    intro c' hc'
    have hne : c' ≠ c := by
      rintro rfl
      rw [setCall_self, hdone] at hc'
      cases hc'
    rw [setCall_other hne, touch_calls] at hc'
    exact ⟨hne, hc', fun heq => hne (hinv.unique c' c hc' hbusy heq)⟩
  constructor
  · exact fun id hid => hinv.valid id (Finset.mem_erase.mp hid).2
  · intro c' hc'
    obtain ⟨-, hold, hid⟩ := hother c' hc'
    exact Finset.mem_erase.mpr ⟨hid, hinv.running c' hold⟩
  · intro c' c'' hc' hc''
    exact hinv.unique c' c'' (hother c' hc').2.1 (hother c'' hc'').2.1
  · intro id hid
    obtain ⟨hne, hmem⟩ := Finset.mem_erase.mp hid
    exact Finset.mem_erase.mpr ⟨hne, hinv.marked id hmem⟩
  · intro entry hentry
    obtain ⟨hmem, hne⟩ := mem_removeKey.mp hentry
    exact Finset.mem_erase.mpr ⟨hne, hinv.active entry hmem⟩
  · exact late_step hinv hnext
  · have hhonest : ∀ entry ∈ (s.touch c (request c) (s.calls c) .finish).published,
        entry.2.state = .complete → entry.2.cancelled = false := honest_step hinv
    exact hhonest

/-- One step of the service keeps the invariant. -/
theorem inv_next {action : Action C P} (hinv : Inv request s)
    (h : step request s action = some t) : Inv request t := by
  cases hexit : s.exited with
  | true => simp [step, hexit] at h
  | false =>
    cases action with
    | call c a =>
      by_cases ha : a = .execute
      · subst ha
        simp only [step, hexit, Bool.false_eq_true, if_false] at h
        exact inv_execute hinv h
      · by_cases hf : a = .finish
        · subst hf
          exact inv_finish hinv h
        · exact inv_step hinv ha hf h
    | cancel requestId =>
      simp only [step, hexit, Bool.false_eq_true, if_false] at h
      split_ifs at h with hrunning
      · cases h
        rw [Bool.and_eq_true, decide_eq_true_eq] at hrunning
        refine ⟨hinv.valid, hinv.running, hinv.unique, ?_, hinv.active, hinv.late, hinv.honest⟩
        intro id hid
        obtain rfl | hid := Finset.mem_insert.mp hid
        · exact hrunning.2
        · exact hinv.marked id hid
      · cases h
        exact hinv
    | destroy =>
      simp only [step, hexit, Bool.false_eq_true, if_false, Option.some.injEq] at h
      subst h
      refine ⟨hinv.valid, hinv.running, hinv.unique, ?_, hinv.active, hinv.late, hinv.honest⟩
      intro id hid
      simp only [Finset.mem_union, List.mem_toFinset, List.mem_map] at hid
      obtain (hid | hid) | ⟨entry, hentry, rfl⟩ := hid
      · exact hinv.marked id hid
      · exact hid
      · exact hinv.active entry hentry
    | exit =>
      simp only [step, hexit, Bool.false_eq_true, if_false, Option.some.injEq] at h
      subst h
      exact ⟨hinv.valid, hinv.running, hinv.unique, hinv.marked, hinv.active, hinv.late, hinv.honest⟩

theorem inv_reachable {acts : List (Action C P)}
    (h : exec (step request) Service.new acts = some t) : Inv request t :=
  exec_keeps (Inv request) (fun _ _ _ hinv hstep => inv_next hinv hstep) inv_new h

/-- A call is changed by its own steps only. -/
theorem calls_next {action : Action C P} (h : step request s action = some t) (c : C) :
    t.calls c = s.calls c ∨ (s.calls c).point = .idle ∨
      ∃ a, action = .call c a ∧ a ≠ .execute ∧
        (s.calls c).step (decide (request c ∈ s.cancelledRequests)) a = some (t.calls c) := by
  cases hexit : s.exited with
  | true => simp [step, hexit] at h
  | false =>
    cases action with
    | call c' a =>
      by_cases ha : a = .execute
      · subst ha
        simp only [step, hexit, Bool.false_eq_true, if_false, Service.execute] at h
        by_cases hc : c = c'
        · subst hc
          split_ifs at h with hidle <;> exact .inr (.inl hidle)
        · split_ifs at h <;> cases h <;> exact .inl (setCall_other hc _)
      · obtain ⟨-, next, hnext, rfl⟩ := step_call ha h
        by_cases hc : c = c'
        · subst hc
          exact .inr (.inr ⟨a, rfl, ha, by rwa [setCall_self]⟩)
        · exact .inl (by rw [setCall_other hc, touch_calls])
    | cancel requestId =>
      simp only [step, hexit, Bool.false_eq_true, if_false] at h
      split_ifs at h <;> cases h <;> exact .inl rfl
    | destroy | exit =>
      simp only [step, hexit, Bool.false_eq_true, if_false, Option.some.injEq] at h
      subst h
      exact .inl rfl

/-- A call that has ended stays as it is. -/
theorem done_next {action : Action C P} (h : step request s action = some t)
    (hdone : (s.calls c).point.busy = false) (hidle : (s.calls c).point ≠ .idle) :
    t.calls c = s.calls c := by
  obtain hsame | hidle' | ⟨a, -, -, hnext⟩ := calls_next h c
  · exact hsame
  · exact absurd hidle' hidle
  · rw [Call.step_busy hnext] at hdone
    cases hdone

theorem not_idle_next {action : Action C P} (h : step request s action = some t)
    (hidle : (s.calls c).point ≠ .idle) : (t.calls c).point ≠ .idle := by
  obtain hsame | hidle' | ⟨a, -, -, hnext⟩ := calls_next h c
  · rwa [hsame]
  · exact absurd hidle' hidle
  · by_cases hf : a = .finish
    · subst hf
      intro hc
      have hlate := (Call.step_finish hnext).2.2
      rw [hc] at hlate
      cases hlate
    · intro hc
      have hbusy := Call.step_busy_next hnext hf
      rw [hc] at hbusy
      cases hbusy

theorem executed_not_idle {acts : List (Action C P)} {s t : Service C P}
    (h : exec (step request) s acts = some t) (hmem : .call c .execute ∈ acts) :
    (t.calls c).point ≠ .idle := by
  obtain ⟨front, back, rfl⟩ := List.append_of_mem hmem
  obtain ⟨u, -, hback⟩ := exec_split h
  obtain ⟨v, hv, hrest⟩ := exec_cons hback
  refine exec_keeps (fun w => (w.calls c).point ≠ .idle)
    (fun _ _ _ hidle hstep => not_idle_next hstep hidle) ?_ hrest
  cases hexit : u.exited with
  | true => simp [step, hexit] at hv
  | false =>
    simp only [step, hexit, Bool.false_eq_true, if_false, Service.execute] at hv
    split_ifs at hv <;> cases hv <;> simp

/-- Marked while it runs, or ended. -/
def Marked (request : C → Text) (c : C) (s : Service C P) : Prop :=
  (s.calls c).point ≠ .idle ∧
    ((s.calls c).point.busy = true → request c ∈ s.cancelledRequests)

/-- A mark is removed only where a call of its request ends. -/
theorem cancelledRequests_next {action : Action C P} {id : Text}
    (h : step request s action = some t) (hid : id ∈ s.cancelledRequests) :
    id ∈ t.cancelledRequests ∨ ∃ c, action = .call c .finish ∧ request c = id := by
  cases hexit : s.exited with
  | true => simp [step, hexit] at h
  | false =>
    cases action with
    | call c a =>
      by_cases ha : a = .execute
      · subst ha
        simp only [step, hexit, Bool.false_eq_true, if_false, Service.execute] at h
        split_ifs at h <;> cases h <;> exact .inl hid
      · obtain ⟨-, next, -, rfl⟩ := step_call ha h
        by_cases hf : a = .finish
        · subst hf
          by_cases hc : request c = id
          · exact .inr ⟨c, rfl, hc⟩
          · exact .inl (Finset.mem_erase.mpr ⟨Ne.symm hc, hid⟩)
        · left
          have hmark := (touch_sets (s := s) (c := c) (request c) (s.calls c) hf).2.1
          rwa [← hmark] at hid
    | cancel requestId =>
      simp only [step, hexit, Bool.false_eq_true, if_false] at h
      split_ifs at h <;> cases h
      · exact .inl (Finset.mem_insert_of_mem hid)
      · exact .inl hid
    | destroy =>
      simp only [step, hexit, Bool.false_eq_true, if_false, Option.some.injEq] at h
      subst h
      exact .inl (Finset.mem_union_left _ (Finset.mem_union_left _ hid))
    | exit =>
      simp only [step, hexit, Bool.false_eq_true, if_false, Option.some.injEq] at h
      subst h
      exact .inl hid

theorem marked_next {action : Action C P} (hinv : Inv request s)
    (h : step request s action = some t) (hmarked : Marked request c s) : Marked request c t := by
  refine ⟨not_idle_next h hmarked.1, ?_⟩
  intro hbusy
  have hbusy' : (s.calls c).point.busy = true := by
    by_contra hdone
    rw [Bool.not_eq_true] at hdone
    rw [done_next h hdone hmarked.1, hdone] at hbusy
    cases hbusy
  obtain hid | ⟨c', rfl, hc'⟩ := cancelledRequests_next h (hmarked.2 hbusy')
  · exact hid
  · -- The only call of the request that is running is `c` itself.
    obtain ⟨-, next, hnext, rfl⟩ := step_call (by simp) h
    obtain rfl := hinv.unique c' c (Call.step_busy hnext) hbusy' hc'
    rw [setCall_self, (Call.step_finish hnext).1] at hbusy
    cases hbusy

/-- What a cancelled call has published says so. -/
def Told (c : C) (s : Service C P) : Prop :=
  (s.calls c).point ≠ .idle ∧ (s.calls c).cancelled = true ∧
    ∀ entry ∈ s.published, entry.1 = c → entry.2.cancelled = true ∧ entry.2.state = .cancelled

theorem published_next {action : Action C P} (h : step request s action = some t)
    {entry : C × Result} (hentry : entry ∈ t.published) : entry ∈ s.published ∨
      ∃ exitCode, entry = (entry.1, writeResult (request entry.1) (s.calls entry.1) exitCode) := by
  cases hexit : s.exited with
  | true => simp [step, hexit] at h
  | false =>
    cases action with
    | call c a =>
      by_cases ha : a = .execute
      · subst ha
        simp only [step, hexit, Bool.false_eq_true, if_false, Service.execute] at h
        split_ifs at h <;> cases h <;> exact .inl hentry
      · obtain ⟨-, next, -, rfl⟩ := step_call ha h
        obtain hold | ⟨outputFailure, written, -, rfl⟩ := touch_published _ _ hentry
        · exact .inl hold
        · exact .inr ⟨_, rfl⟩
    | cancel requestId =>
      simp only [step, hexit, Bool.false_eq_true, if_false] at h
      split_ifs at h <;> cases h <;> exact .inl hentry
    | destroy | exit =>
      simp only [step, hexit, Bool.false_eq_true, if_false, Option.some.injEq] at h
      subst h
      exact .inl hentry

theorem told_next {action : Action C P} (h : step request s action = some t) (htold : Told c s) :
    Told c t := by
  obtain ⟨hidle, hcancelled, hentries⟩ := htold
  refine ⟨not_idle_next h hidle, ?_, ?_⟩
  · obtain hsame | hidle' | ⟨a, -, -, hnext⟩ := calls_next h c
    · rwa [hsame]
    · exact absurd hidle' hidle
    · exact Call.step_cancelled hnext hcancelled
  · intro entry hentry hc
    obtain hold | ⟨exitCode, hnew⟩ := published_next h hentry
    · exact hentries entry hold hc
    · rw [hc] at hnew
      rw [hnew]
      exact writeResult_cancelled _ _ hcancelled

/-- A cancel between the registration of a call and its recheck is told. -/
theorem cancel_told {before mid rest : List (Action C P)} {cancelFile : Bool}
    (hexecuted : .call c .execute ∈ before)
    (h : exec (step request) Service.new
      (before ++ .cancel (request c) :: (mid ++ .call c (.recheck cancelFile) :: rest)) = some t) :
    ∀ entry ∈ t.published, entry.1 = c → entry.2.cancelled = true ∧ entry.2.state = .cancelled := by
  obtain ⟨s₁, hs₁, h⟩ := exec_split h
  obtain ⟨s₂, hs₂, h⟩ := exec_cons h
  obtain ⟨s₃, hs₃, h⟩ := exec_split h
  obtain ⟨s₄, hs₄, hrest⟩ := exec_cons h
  have hinv₁ := inv_reachable hs₁
  have hinv₂ := inv_next hinv₁ hs₂
  have hidle := executed_not_idle hs₁ hexecuted
  have hmarked : Marked request c s₂ := by
    refine ⟨not_idle_next hs₂ hidle, ?_⟩
    intro hbusy
    cases hexit : s₁.exited with
    | true => simp [step, hexit] at hs₂
    | false =>
      simp only [step, hexit, Bool.false_eq_true, if_false] at hs₂
      split_ifs at hs₂ with hrunning <;> cases hs₂
      · exact Finset.mem_insert_self _ _
      · have hmem := hinv₁.running c hbusy
        simp [hinv₁.valid _ hmem, hmem] at hrunning
  have hboth := exec_keeps (fun u => Inv request u ∧ Marked request c u)
    (fun _ _ _ hu hstep => ⟨inv_next hu.1 hstep, marked_next hu.1 hstep hu.2⟩) ⟨hinv₂, hmarked⟩ hs₃
  obtain ⟨hinv₃, hmarked₃⟩ := hboth
  have htold : Told c s₄ := by
    obtain ⟨-, next, hnext, rfl⟩ := step_call (by simp) hs₄
    have hbusy := Call.step_busy hnext
    have hid := hmarked₃.2 hbusy
    rw [decide_eq_true hid] at hnext
    obtain ⟨hpoint, hcancelled⟩ := Call.step_recheck hnext
    refine ⟨?_, by rwa [setCall_self], ?_⟩
    · intro hc
      rw [setCall_self] at hc
      have hnot := Call.step_busy_next hnext (by simp)
      rw [hc] at hnot
      cases hnot
    · intro entry hentry hc
      have hlate := hinv₃.late entry hentry
      rw [hc, hpoint] at hlate
      cases hlate
  exact (exec_keeps (Told c) (fun _ _ _ htold hstep => told_next hstep htold) htold hrest).2.2

theorem finish_clears (h : step request s (.call c .finish) = some t) :
    request c ∉ t.runningRequests ∧ request c ∉ t.cancelledRequests ∧
      ∀ entry ∈ t.activeProcesses, entry.1 ≠ request c := by
  obtain ⟨-, next, -, rfl⟩ := step_call (by simp) h
  exact ⟨Finset.notMem_erase _ _, Finset.notMem_erase _ _, fun entry he => (mem_removeKey.mp he).2⟩

theorem execute_step (h : step request s (.call c .execute) = some t) :
    s.execute c (request c) = some t := by
  cases hexit : s.exited with
  | true => simp [step, hexit] at h
  | false => simpa only [step, hexit, Bool.false_eq_true, if_false] using h

/-- A registered call starts without a mark and without a process of its request. -/
theorem execute_fresh (hinv : Inv request s) (h : step request s (.call c .execute) = some t)
    (hpoint : (t.calls c).point = .preparing) : request c ∉ t.cancelledRequests ∧
      ∀ entry ∈ t.activeProcesses, entry.1 ≠ request c := by
  have hexec := execute_step h
  unfold Service.execute at hexec
  split_ifs at hexec with hidle hvalid hrunning <;> cases hexec
  · simp at hpoint
  · simp at hpoint
  · refine ⟨fun hid => hrunning (hinv.marked _ hid), ?_⟩
    intro entry hentry heq
    exact hrunning (heq ▸ hinv.active entry hentry)

theorem execute_rejected (h : step request s (.call c .execute) = some t)
    (hpoint : (t.calls c).point = .rejected) : t.runningRequests = s.runningRequests ∧
      t.cancelledRequests = s.cancelledRequests ∧ t.activeProcesses = s.activeProcesses := by
  have hexec := execute_step h
  unfold Service.execute at hexec
  split_ifs at hexec <;> cases hexec
  · simp at hpoint
  · exact ⟨rfl, rfl, rfl⟩
  · simp at hpoint

/-- A call that is cancelled while its process runs. -/
def cancelledRun (requestId : Text) : List (Action Nat Unit) :=
  [.call 0 .execute, .call 0 (.prepare true), .call 0 (.check false), .call 0 (.start (some ())),
    .call 0 .put, .call 0 .launch] ++ .cancel requestId :: ([.call 0 (.poll false (some 0) false)] ++
    .call 0 (.recheck false) :: [.call 0 (.stop true (some 0)), .call 0 (.clean true),
      .call 0 .remove, .call 0 (.publish false true), .call 0 .finish])

end OpenAdb.Shizuku.Cancellation
