import OpenAdb.Shizuku.Lifecycle
import Mathlib.Data.Fintype.Basic

namespace OpenAdb.Shizuku.Abandonment

open OpenAdb.Lib.PyText OpenAdb.Lib.Runs OpenAdb.Shizuku.Lifecycle
open OpenAdb.Shizuku.Cancellation hiding step Action

variable {C : Type} [DecidableEq C]

def Ended (s : System C) (c : C) : Prop := s.exited c = true ∨ s.asked c = true

/-- No later step starts a process, and those started are dealt with before
the service process exits. -/
def Safe (requestId : Text) (s : System C) : Prop :=
  s.activity.abandoned = true →
    (∀ c process, step requestId s (.call c (.start (some process))) = none) ∧
    (s.service.exited = true → ∀ c, (s.service.calls c).process.isSome = true → Ended s c)

/-- The call is still to reach the service, or it is past its look at the mark. -/
def OnItsWay (s : System C) (c : C) : Prop :=
  s.activity.execution c = .calling ∧ (s.service.calls c).point = .idle ∨
    (s.service.calls c).point = .starting

/-- The call will look for a mark that is not there. -/
def Unwarned (requestId : Text) (s : System C) (c : C) : Prop :=
  ((s.service.calls c).point = .preparing ∨ (s.service.calls c).point = .checking) ∧
    requestId ∉ s.service.cancelledRequests

/-- The process has been started, and nothing but its call knows it. -/
def Unregistered (requestId : Text) (s : System C) (c : C) : Prop :=
  ((s.service.calls c).point = .started ∨ (s.service.calls c).point = .cleaning) ∧
    (s.service.calls c).process.isSome = true ∧
    (requestId, c) ∉ s.service.activeProcesses ∧ ¬Ended s c

/-- What the code does not look at before it abandons the request, and before
`destroy` copies `activeProcesses`. -/
def Clear (requestId : Text) (s : System C) : Action C → Prop
  | .publish => s.service.exited = false → ¬Finds s ∧ ∀ c, ¬OnItsWay s c ∧ ¬Unwarned requestId s c
  | .cleanup => s.activity.completion = some (.hostCancellation, .cleaning) →
    s.service.exited = false → ∀ c, ¬OnItsWay s c ∧ ¬Unwarned requestId s c
  | .destroy => ∀ c, ¬OnItsWay s c ∧ ¬Unregistered requestId s c
  | _ => True

/-- No process has been started for the call. -/
def beforeStart : Point → Bool
  | .idle | .preparing | .checking | .starting | .rejected => true
  | _ => false

/-- The process is in `activeProcesses`. -/
def inTable : Point → Bool
  | .launching | .polling | .rechecking | .stopping => true
  | _ => false

/-- The call is still to call `terminateProcess`, unless the process exits. -/
def owesStop : Point → Bool
  | .started | .launching | .polling | .rechecking | .stopping | .cleaning => true
  | _ => false

/-- What a call says of its process at each of its points. -/
structure Sound (c : C) (registered exited ended : Prop) (call : Call C) : Prop where
  owned : ∀ process, call.process = some process → process = c
  early : beforeStart call.point = true →
    call.process = none ∧ call.exitCode < 0 ∧ call.terminationFailed = false
  fresh : call.point = .started → call.process.isSome = true
  held : inTable call.point = true → registered
  reason : call.point = .rechecking ∨ call.point = .stopping →
    call.cancelled = true ∨ call.timedOut = true ∨ exited
  owing : call.process.isSome = true →
    ended ∨ owesStop call.point = true ∧ call.exitCode < 0 ∧ call.terminationFailed = false

variable {c : C} {registered exited ended registered' ended' : Prop} {call next : Call C}
  {marked : Bool} {a : CallAction C}

omit [DecidableEq C] in
theorem Sound.mono (h : Sound c registered exited ended call)
    (hregistered : inTable call.point = true → registered → registered') {exited' : Prop}
    (hexited : exited → exited') (hended : ended → ended') : Sound c registered' exited' ended' call where
  owned := h.owned
  early := h.early
  fresh := h.fresh
  held htable := hregistered htable (h.held htable)
  reason hpoint := (h.reason hpoint).imp_right (Or.imp_right hexited)
  owing hsome := (h.owing hsome).imp_left hended

omit [DecidableEq C] in
/-- A step that leaves the process alone. -/
theorem Sound.moved (h : Sound c registered exited ended call) (hprocess : next.process = call.process)
    (hsame : beforeStart next.point = true ∨ owesStop next.point = true →
      next.exitCode = call.exitCode ∧ next.terminationFailed = call.terminationFailed)
    (hearly : beforeStart next.point = true → beforeStart call.point = true)
    (hfresh : next.point ≠ .started) (hheld : inTable next.point = true → registered')
    (hreason : next.point = .rechecking ∨ next.point = .stopping →
      next.cancelled = true ∨ next.timedOut = true ∨ exited)
    (howing : call.process.isSome = true → owesStop call.point = true → call.exitCode < 0 →
      call.terminationFailed = false → owesStop next.point = true ∨ ended')
    (hended : ended → ended') : Sound c registered' exited ended' next where
  owned process hp := h.owned process (hprocess ▸ hp)
  early hp := by
    obtain ⟨hexit, hfailed⟩ := hsame (.inl hp)
    rw [hprocess, hexit, hfailed]
    exact h.early (hearly hp)
  fresh hp := absurd hp hfresh
  held := hheld
  reason := hreason
  owing hsome := by
    rw [hprocess] at hsome
    obtain hend | ⟨hpoint, hexit, hfailed⟩ := h.owing hsome
    · exact .inl (hended hend)
    · obtain hnext | hend := howing hsome hpoint hexit hfailed
      · obtain ⟨hexit', hfailed'⟩ := hsame (.inr hnext)
        exact .inr ⟨hnext, hexit' ▸ hexit, hfailed' ▸ hfailed⟩
      · exact .inl hend

omit [DecidableEq C] in
theorem Sound.started {process : Option C} (h : Sound c registered exited ended call)
    (hstep : call.step marked (.start process) = some next)
    (hstart : ∀ p, process = some p → p = c) : Sound c registered' exited ended' next := by
  have hpoint : call.point = .starting := by
    by_contra hne
    simp [Call.step, hne] at hstep
  obtain ⟨-, hexit, hfailed⟩ := h.early (by rw [hpoint]; rfl)
  simp only [Call.step, if_pos hpoint, Option.some.injEq] at hstep
  subst hstep
  cases process with
  | some p =>
    exact ⟨hstart, by simp [beforeStart], by simp, by simp [inTable], by simp,
      fun _ => .inr ⟨rfl, hexit, hfailed⟩⟩
  | none => exact ⟨hstart, by simp [beforeStart], by simp, by simp [inTable], by simp, by simp⟩

omit [DecidableEq C] in
theorem Sound.polled {cancelFile expired : Bool} {exitValue : Option Int}
    (h : Sound c registered exited ended call)
    (hstep : call.step marked (.poll cancelFile exitValue expired) = some next)
    (hexit : exitValue.isSome = true → exited) (hkept : registered → registered')
    (hexited : exited → ended) (hended : ended → ended') : Sound c registered' exited ended' next := by
  have hpoint : call.point = .polling := by
    by_contra hne
    simp [Call.step, hne] at hstep
  have hheld : registered' := hkept (h.held (by rw [hpoint]; rfl))
  simp only [Call.step, if_pos hpoint] at hstep
  by_cases hmarked : (marked || cancelFile) = true
  · rw [if_pos hmarked] at hstep
    cases hstep
    exact h.moved rfl (fun _ => ⟨rfl, rfl⟩) (by simp [beforeStart]) (by simp) (fun _ => hheld)
      (fun _ => .inl rfl) (fun _ _ _ _ => .inl rfl) hended
  · rw [if_neg hmarked] at hstep
    cases exitValue with
    | some exitCode =>
      cases hstep
      exact ⟨h.owned, by simp [beforeStart], by simp, fun _ => hheld, fun _ => .inr (.inr (hexit rfl)),
        fun _ => .inl (hended (hexited (hexit rfl)))⟩
    | none =>
      cases hstep
      cases expired with
      | true =>
        exact h.moved rfl (fun _ => ⟨rfl, rfl⟩) (by simp [beforeStart]) (by simp) (fun _ => hheld)
          (fun _ => .inr (.inl rfl)) (fun _ _ _ _ => .inl rfl) hended
      | false =>
        exact h.moved rfl (fun _ => ⟨rfl, rfl⟩) (by simp [beforeStart]) (by simp) (fun _ => hheld) (by simp)
          (fun _ _ _ _ => .inl rfl) hended

omit [DecidableEq C] in
/-- The ends of a call: `terminateProcess` where the process may still run. -/
theorem Sound.stopped {terminated : Bool} {exitValue : Option Int}
    (h : Sound c registered exited ended call)
    (hstep : call.step marked (.stop terminated exitValue) = some next)
    (hexited : exited → ended) (hended : ended → ended')
    (hasks : asks call (.stop terminated exitValue) = true → ended') :
    Sound c registered' exited ended' next := by
  have hpoint : call.point = .stopping := by
    by_contra hne
    simp [Call.step, hne] at hstep
  simp only [Call.step, if_pos hpoint] at hstep
  by_cases hboth : (call.cancelled || call.timedOut) = true
  · rw [if_pos hboth] at hstep
    cases hstep
    exact ⟨h.owned, by simp [beforeStart], by simp, by simp [inTable], by simp, fun _ => .inl (hasks hboth)⟩
  · rw [if_neg hboth] at hstep
    cases hstep
    rw [Bool.or_eq_true, not_or] at hboth
    have hexit : exited := ((h.reason (.inr hpoint)).resolve_left hboth.1).resolve_left hboth.2
    exact ⟨h.owned, by simp [beforeStart], by simp, by simp [inTable], by simp,
      fun _ => .inl (hended (hexited hexit))⟩

omit [DecidableEq C] in
theorem Sound.cleaned {terminated : Bool} (h : Sound c registered exited ended call)
    (hstep : call.step marked (.clean terminated) = some next) (hended : ended → ended')
    (hasks : asks call (.clean terminated) = true → ended') : Sound c registered' exited ended' next := by
  have hpoint : call.point = .cleaning := by
    by_contra hne
    simp [Call.step, hne] at hstep
  simp only [Call.step, if_pos hpoint, Option.some.injEq] at hstep
  subst hstep
  refine ⟨h.owned, by simp [beforeStart], by simp, by simp [inTable], by simp, fun hsome => .inl ?_⟩
  obtain hend | ⟨-, hexit, hfailed⟩ := h.owing hsome
  · exact hended hend
  · exact hasks (by simp [asks, hpoint, hsome, hexit, hfailed])

omit [DecidableEq C] in
theorem Sound.escaped (h : Sound c registered exited ended call)
    (hstep : call.step marked .escape = some next) (hended : ended → ended')
    (hasks : asks call .escape = true → ended') : Sound c registered' exited ended' next := by
  have hpoint : call.point.outsideTry = true := by
    by_contra hne
    simp [Call.step, hne] at hstep
  simp only [Call.step, if_pos hpoint, Option.some.injEq] at hstep
  subst hstep
  refine h.moved rfl (by simp [beforeStart, owesStop]) (by simp [beforeStart]) (by simp) (by simp [inTable])
    (by simp) ?_ hended
  intro hsome howing hexit hfailed
  have hcleaning : call.point = .cleaning := by
    cases hp : call.point <;> simp_all [Point.outsideTry, owesStop]
  exact .inr (hasks (by simp [asks, hcleaning, hsome, hexit, hfailed]))

omit [DecidableEq C] in
/-- One step of the call; `terminateProcess` and an exit that is seen end the process. -/
theorem Sound.step (h : Sound c registered exited ended call) (hstep : call.step marked a = some next)
    (hstart : ∀ process, a = .start (some process) → process = c)
    (hpoll : ∀ cancelFile exitCode expired, a = .poll cancelFile (some exitCode) expired → exited)
    (hput : a = .put → registered')
    (hkept : a ≠ .put → inTable next.point = true → registered → registered')
    (hexited : exited → ended) (hended : ended → ended') (hasks : asks call a = true → ended') :
    Sound c registered' exited ended' next := by
  cases a with
  | execute => cases hstep
  | start process => exact h.started hstep (fun p hp => hstart p (by rw [hp]))
  | poll cancelFile exitValue expired =>
    have hnext : inTable next.point = true := by
      simp only [Call.step] at hstep
      split at hstep
      · split at hstep
        · cases hstep
          rfl
        · split at hstep <;> cases hstep
          · rfl
          · cases expired <;> rfl
      · cases hstep
    refine h.polled hstep ?_ (hkept (by simp) hnext) hexited hended
    intro hsome
    obtain ⟨exitCode, rfl⟩ := Option.isSome_iff_exists.mp hsome
    exact hpoll _ _ _ rfl
  | stop terminated exitValue => exact h.stopped hstep hexited hended hasks
  | clean terminated => exact h.cleaned hstep hended hasks
  | escape => exact h.escaped hstep hended hasks
  | prepare accepted | check cancelFile =>
    -- Nothing has been started, and nothing is.
    simp only [Call.step] at hstep
    split_ifs at hstep with hpoint
    all_goals
      cases hstep
      obtain ⟨hnone, -⟩ := h.early (by rw [hpoint]; rfl)
      refine h.moved rfl (fun _ => ⟨rfl, rfl⟩) (fun _ => by rw [hpoint]; rfl) ?_ ?_ ?_ ?_ hended <;>
        simp [inTable, hnone]
  | put =>
    simp only [Call.step] at hstep
    split_ifs at hstep with hpoint
    cases hstep
    exact h.moved rfl (fun _ => ⟨rfl, rfl⟩) (by simp [beforeStart]) (by simp) (fun _ => hput rfl) (by simp)
      (fun _ _ _ _ => .inl rfl) hended
  | launch =>
    simp only [Call.step] at hstep
    split_ifs at hstep with hpoint
    cases hstep
    exact h.moved rfl (fun _ => ⟨rfl, rfl⟩) (by simp [beforeStart]) (by simp)
      (fun _ => hkept (by simp) rfl (h.held (by rw [hpoint]; rfl))) (by simp) (fun _ _ _ _ => .inl rfl) hended
  | recheck cancelFile =>
    simp only [Call.step] at hstep
    split_ifs at hstep with hpoint
    cases hstep
    refine h.moved rfl (fun _ => ⟨rfl, rfl⟩) (by simp [beforeStart]) (by simp)
      (fun _ => hkept (by simp) rfl (h.held (by rw [hpoint]; rfl))) ?_ (fun _ _ _ _ => .inl rfl) hended
    intro _
    exact (h.reason (.inl hpoint)).imp_left (fun hc => by simp [hc])
  | fail =>
    simp only [Call.step] at hstep
    split_ifs at hstep with hpoint
    cases hstep
    exact h.moved rfl (fun _ => ⟨rfl, rfl⟩) (by simp [beforeStart]) (by simp) (by simp [inTable]) (by simp)
      (fun _ _ _ _ => .inl rfl) hended
  | remove | publish =>
    simp only [Call.step] at hstep
    split_ifs at hstep with hpoint
    cases hstep
    exact h.moved rfl (by simp [beforeStart, owesStop]) (by simp [beforeStart]) (by simp) (by simp [inTable])
      (by simp) (by simp [hpoint, owesStop]) hended
  | finish =>
    cases hpoint : call.point with
    | finishing published =>
      cases published <;> simp only [Call.step, hpoint, Option.some.injEq] at hstep <;> subst hstep <;>
        exact h.moved rfl (by simp [beforeStart, owesStop]) (by simp [beforeStart]) (by simp) (by simp [inTable])
          (by simp) (by simp [hpoint, owesStop]) hended
    | _ => simp [Call.step, hpoint] at hstep

variable {requestId : Text} {s t : System C} {action : Action C}

/-- What every call of the request says of its process. -/
def Kept (requestId : Text) (s : System C) (c : C) : Prop :=
  Sound c ((requestId, c) ∈ s.service.activeProcesses) (s.exited c = true) (Ended s c)
    (s.service.calls c)

theorem service_cancel {u : Service C C}
    (h : Cancellation.step (fun _ => requestId) s.service (.cancel requestId) = some u) :
    u.calls = s.service.calls ∧ u.activeProcesses = s.service.activeProcesses ∧
      u.exited = s.service.exited ∧
      ∀ id ∈ s.service.cancelledRequests, id ∈ u.cancelledRequests := by
  simp only [Cancellation.step] at h
  split_ifs at h <;> cases h
  · exact ⟨rfl, rfl, rfl, fun id hid => Finset.mem_insert_of_mem hid⟩
  · exact ⟨rfl, rfl, rfl, fun id hid => hid⟩

theorem service_destroy {u : Service C C}
    (h : Cancellation.step (fun _ => requestId) s.service .destroy = some u) :
    u.calls = s.service.calls ∧ u.activeProcesses = s.service.activeProcesses ∧
      u.exited = s.service.exited ∧
      ∀ id, id ∈ s.service.cancelledRequests ∨ id ∈ s.service.runningRequests →
        id ∈ u.cancelledRequests := by
  simp only [Cancellation.step] at h
  split_ifs at h
  cases h
  refine ⟨rfl, rfl, rfl, ?_⟩
  intro id hid
  exact Finset.mem_union_left _ (Finset.mem_union.mpr hid)

theorem service_exit {u : Service C C}
    (h : Cancellation.step (fun _ => requestId) s.service .exit = some u) :
    u.calls = s.service.calls ∧ u.activeProcesses = s.service.activeProcesses ∧
      u.cancelledRequests = s.service.cancelledRequests := by
  simp only [Cancellation.step] at h
  split_ifs at h
  cases h
  exact ⟨rfl, rfl, rfl⟩

theorem service_execute {c : C} {u : Service C C}
    (h : Cancellation.step (fun _ => requestId) s.service (.call c .execute) = some u) :
    (s.service.calls c).point = .idle ∧ u.activeProcesses = s.service.activeProcesses ∧
      u.exited = s.service.exited ∧
      (∀ c', c' ≠ c → u.calls c' = s.service.calls c') ∧
      ∃ point, (point = .thrown ∨ point = .rejected ∨ point = .preparing) ∧
        u.calls c = { s.service.calls c with point := point } := by
  have hexec := execute_step h
  unfold Service.execute at hexec
  split_ifs at hexec with hidle hvalid hrunning <;> cases hexec
  · exact ⟨hidle, rfl, rfl, fun c' hc => setCall_other hc _, _, .inl rfl, setCall_self _⟩
  · exact ⟨hidle, rfl, rfl, fun c' hc => setCall_other hc _, _, .inr (.inl rfl), setCall_self _⟩
  · exact ⟨hidle, rfl, rfl, fun c' hc => setCall_other hc _, _, .inr (.inr rfl), setCall_self _⟩

omit [DecidableEq C] in
/-- Only `put` and the two removals change `activeProcesses`. -/
theorem touch_active {service : Service C C} {c : C} {a : CallAction C} (call : Call C)
    (hput : a ≠ .put) (hremove : a ≠ .remove) (hfinish : a ≠ .finish) :
    (service.touch c requestId call a).activeProcesses = service.activeProcesses := by
  cases a with
  | publish outputFailure written => cases written <;> rfl
  | put => exact absurd rfl hput
  | remove => exact absurd rfl hremove
  | finish => exact absurd rfl hfinish
  | _ => rfl

omit [DecidableEq C] in
theorem inTable_next {call next : Call C} {marked : Bool} {a : CallAction C}
    (h : call.step marked a = some next) (hnext : inTable next.point = true) :
    a ≠ .remove ∧ a ≠ .finish := by
  constructor
  · rintro rfl
    simp only [Call.step] at h
    split_ifs at h
    cases h
    cases hnext
  · rintro rfl
    have hlate := (Call.step_finish h).2.2
    cases hp : next.point <;> simp_all [inTable, Point.late]

omit [DecidableEq C] in
theorem inTable_busy {point : Point} (h : inTable point = true) : point.busy = true := by
  cases point <;> first | rfl | cases h

omit [DecidableEq C] in
theorem Kept.of_same {c : C} (h : Kept requestId s c) (hcalls : t.service.calls c = s.service.calls c)
    (hactive : inTable (s.service.calls c).point = true →
      (requestId, c) ∈ s.service.activeProcesses → (requestId, c) ∈ t.service.activeProcesses)
    (hexited : s.exited c = true → t.exited c = true)
    (hasked : s.asked c = true → t.asked c = true) : Kept requestId t c := by
  unfold Kept
  rw [hcalls]
  exact h.mono hactive hexited (Or.imp hexited hasked)

theorem kept_called {c : C} {a : CallAction C} (hinv : Inv (fun _ => requestId) s.service)
    (hkept : ∀ c, Kept requestId s c) (hallow : s.allows c a = true)
    (h : Cancellation.step (fun _ => requestId) s.service (.call c a) = some t.service)
    (hexited : t.exited = s.exited) (hasked : ∀ c', s.asked c' = true → t.asked c' = true)
    (hasks : asks (s.service.calls c) a = true → t.asked c = true) (c' : C) : Kept requestId t c' := by
  have hledger : s.exited c' = true → t.exited c' = true := fun hc => by rwa [hexited]
  by_cases ha : a = .execute
  · subst ha
    obtain ⟨hidle, hactive, -, hother, point, hpoint, hself⟩ := service_execute h
    by_cases hc : c' = c
    · subst hc
      obtain ⟨hnone, hexit, hfailed⟩ := (hkept c').early (by rw [hidle]; rfl)
      unfold Kept
      rw [hself]
      obtain rfl | rfl | rfl := hpoint <;>
        exact ⟨(hkept c').owned, fun _ => ⟨hnone, hexit, hfailed⟩, by simp, by simp [inTable], by simp,
          fun hsome => by simp [hnone] at hsome⟩
    · exact (hkept c').of_same (hother c' hc) (fun _ hin => hactive ▸ hin) hledger (hasked c')
  · obtain ⟨-, next, hnext, hservice⟩ := step_call ha h
    have hbusy := Call.step_busy hnext
    by_cases hc : c' = c
    · subst hc
      have hcall : t.service.calls c' = next := by rw [hservice, setCall_self]
      have hactive : t.service.activeProcesses =
          (s.service.touch c' requestId (s.service.calls c') a).activeProcesses := by
        rw [hservice]
        rfl
      unfold Kept
      rw [hcall, hactive, show (t.exited c' = true) = (s.exited c' = true) by rw [hexited]]
      refine (hkept c').step hnext ?_ ?_ ?_ ?_ .inl (Or.imp hledger (hasked c')) (fun hc => .inr (hasks hc))
      · rintro process rfl
        simpa [System.allows] using hallow
      · rintro cancelFile exitCode expired rfl
        simpa [System.allows] using hallow
      · rintro rfl
        -- The call has a process, and it is its own.
        have hpoint : (s.service.calls c').point = .started := by
          by_contra hne
          simp [Call.step, hne] at hnext
        obtain ⟨process, hprocess⟩ := Option.isSome_iff_exists.mp ((hkept c').fresh hpoint)
        obtain rfl := (hkept c').owned process hprocess
        simp [Service.touch, hprocess]
      · intro hput htable hin
        obtain ⟨hremove, hfinish⟩ := inTable_next hnext htable
        rwa [touch_active _ hput hremove hfinish]
    · -- Two calls of the request are never under way together.
      refine (hkept c').of_same (by rw [hservice, setCall_other hc, touch_calls]) ?_ hledger (hasked c')
      intro htable
      exact absurd (hinv.unique c' c (inTable_busy htable) hbusy rfl) hc

theorem kept_next (hinv : Inv (fun _ => requestId) s.service) (hkept : ∀ c, Kept requestId s c)
    (h : step requestId s action = some t) (c : C) : Kept requestId t c := by
  cases step_effect h with
  | outside hservice hsnapshot hexited hasked =>
    exact (hkept c).of_same (by rw [hservice]) (fun _ hin => hservice ▸ hin) (hexited c) (hasked c)
  | cancelled hcancel hsnapshot hexited hasked =>
    obtain ⟨hcalls, hactive, -, -⟩ := service_cancel hcancel
    exact (hkept c).of_same (by rw [hcalls]) (fun _ hin => hactive ▸ hin) (fun hc => by rwa [hexited])
      (fun hc => by rwa [hasked])
  | called c' a hallow hcall hactivity hsnapshot hexited hasked hasks =>
    exact kept_called hinv hkept hallow hcall hexited hasked hasks c
  | destroyed haction hdestroy hremoved hsnapshot hexited hasked =>
    obtain ⟨hcalls, hactive, -, -⟩ := service_destroy hdestroy
    exact (hkept c).of_same (by rw [hcalls]) (fun _ hin => hactive ▸ hin) (fun hc => by rwa [hexited])
      (fun hc => by rwa [hasked])
  | terminated process rest hbefore hsnapshot hservice hexited hasked hprocess =>
    exact (hkept c).of_same (by rw [hservice]) (fun _ hin => hservice ▸ hin) (fun hc => by rwa [hexited])
      (hasked c)
  | left hexit hbefore hsnapshot hexited hasked =>
    obtain ⟨hcalls, hactive, -⟩ := service_exit hexit
    exact (hkept c).of_same (by rw [hcalls]) (fun _ hin => hactive ▸ hin) (fun hc => by rwa [hexited])
      (fun hc => by rwa [hasked])

theorem base_next (hinv : Inv (fun _ => requestId) s.service)
    (h : step requestId s action = some t) : Inv (fun _ => requestId) t.service := by
  cases step_effect h with
  | outside hservice => rwa [hservice]
  | cancelled hstep => exact inv_next hinv hstep
  | called c a hallow hstep => exact inv_next hinv hstep
  | destroyed haction hstep => exact inv_next hinv hstep
  | terminated process rest hbefore hsnapshot hservice => rwa [hservice]
  | left hstep => exact inv_next hinv hstep

/-- No thread is on its way to the service, and no call of the service will
start a process any more. -/
structure Still (requestId : Text) (s : System C) : Prop where
  lost : ¬Finds s
  calls : ∀ c, ¬OnItsWay s c ∧ ¬Unwarned requestId s c

theorem still_called {c : C} {a : CallAction C} (hinv : Inv (fun _ => requestId) s.service)
    (hcalls : ∀ c, ¬OnItsWay s c ∧ ¬Unwarned requestId s c) (hallow : s.allows c a = true)
    (h : Cancellation.step (fun _ => requestId) s.service (.call c a) = some t.service)
    (hactivity : t.activity = s.activity) (c' : C) : ¬OnItsWay t c' ∧ ¬Unwarned requestId t c' := by
  have ha : a ≠ .execute := by
    rintro rfl
    refine (hcalls c).1 (.inl ⟨?_, (service_execute h).1⟩)
    simpa [System.allows] using hallow
  obtain ⟨-, next, hnext, hservice⟩ := step_call ha h
  have hmark : (s.service.calls c').point = .preparing ∨ (s.service.calls c').point = .checking →
      Marked (fun _ => requestId) c' s.service := by
    intro hpoint
    refine ⟨by obtain hp | hp := hpoint <;> simp [hp], fun _ => ?_⟩
    by_contra hunmarked
    exact (hcalls c').2 ⟨hpoint, hunmarked⟩
  have hpoint : (t.service.calls c').point = .starting ∨ (t.service.calls c').point = .preparing ∨
      (t.service.calls c').point = .checking → (t.service.calls c').point ≠ .starting ∧
        ((s.service.calls c').point = .preparing ∨ (s.service.calls c').point = .checking) := by
    intro ht
    by_cases hc : c' = c
    · subst hc
      rw [hservice, setCall_self] at ht ⊢
      cases a with
      | prepare accepted =>
        have hp : (s.service.calls c').point = .preparing := by
          by_contra hne
          simp [Call.step, hne] at hnext
        simp only [Call.step, if_pos hp, Option.some.injEq] at hnext
        subst hnext
        exact ⟨by cases accepted <;> simp, .inl hp⟩
      | check cancelFile =>
        -- The mark is there, so nothing is started.
        simp only [Call.step] at hnext
        split_ifs at hnext with hp hmarked <;> cases hnext
        · simp at ht
        · obtain ⟨hidle, hbusy⟩ := hmark (.inr hp)
          have hid := hbusy (by rw [hp]; rfl)
          simp [hid] at hmarked
      | execute => exact absurd rfl ha
      | start process =>
        simp only [Call.step] at hnext
        split_ifs at hnext <;> cases hnext <;> simp_all
      | poll cancelFile exitValue expired =>
        simp only [Call.step] at hnext
        split at hnext
        · split at hnext
          · cases hnext
            simp at ht
          · split at hnext <;> cases hnext
            · simp at ht
            · cases expired <;> simp at ht
        · cases hnext
      | finish =>
        have hlate := (Call.step_finish hnext).2.2
        cases hp : next.point <;> simp_all [Point.late]
      | _ =>
        simp only [Call.step] at hnext
        split_ifs at hnext <;> cases hnext <;> simp at ht
    · rw [hservice, setCall_other hc, touch_calls] at ht ⊢
      have hne : (s.service.calls c').point ≠ .starting := fun hp => (hcalls c').1 (.inr hp)
      exact ⟨hne, ht.resolve_left hne⟩
  constructor
  · rintro (⟨hcalling, hidle⟩ | hstarting)
    · refine (hcalls c').1 (.inl ⟨by rwa [← hactivity], ?_⟩)
      by_contra hne
      exact not_idle_next h hne hidle
    · exact (hpoint (.inl hstarting)).1 hstarting
  · rintro ⟨hp, hunmarked⟩
    obtain ⟨-, hbefore⟩ := hpoint (.inr hp)
    obtain ⟨-, hbusy⟩ := marked_next hinv h (hmark hbefore)
    exact hunmarked (hbusy (by obtain hp | hp := hp <;> rw [hp] <;> rfl))

theorem still_kept (hinv : Inv (fun _ => requestId) s.service) (hterminal : s.activity.terminal = true)
    (hstill : Still requestId s) (h : step requestId s action = some t) : Still requestId t := by
  have hcalmer := calmer_next hterminal h
  have hcalling : ∀ c, t.activity.execution c = .calling → s.activity.execution c = .calling :=
    fun c hc => (hcalmer.calling c hc).resolve_right hstill.lost
  refine ⟨?_, ?_⟩
  · rintro ⟨hcommand, hmain | ⟨c, hrunning⟩⟩
    · exact hstill.lost ⟨hcalmer.command hcommand, .inl (hcalmer.main hmain)⟩
    · obtain hr | hm := hcalmer.running c hrunning
      · exact hstill.lost ⟨hcalmer.command hcommand, .inr ⟨c, hr⟩⟩
      · exact hstill.lost ⟨hcalmer.command hcommand, .inl hm⟩
  · have hsame : t.service.calls = s.service.calls →
        (∀ id ∈ s.service.cancelledRequests, id ∈ t.service.cancelledRequests) →
        ∀ c, ¬OnItsWay t c ∧ ¬Unwarned requestId t c := by
      intro hcalls hmarks c
      constructor
      · rintro (⟨hc, hidle⟩ | hstarting)
        · exact (hstill.calls c).1 (.inl ⟨hcalling c hc, by rwa [← hcalls]⟩)
        · exact (hstill.calls c).1 (.inr (by rwa [← hcalls]))
      · rintro ⟨hpoint, hunmarked⟩
        rw [hcalls] at hpoint
        exact (hstill.calls c).2 ⟨hpoint, fun hid => hunmarked (hmarks _ hid)⟩
    cases step_effect h with
    | outside hservice => exact hsame (by rw [hservice]) (fun id hid => by rwa [hservice])
    | cancelled hcancel =>
      obtain ⟨hcalls, -, -, hmarks⟩ := service_cancel hcancel
      exact hsame hcalls hmarks
    | called c a hallow hcall hactivity => exact still_called hinv hstill.calls hallow hcall hactivity
    | destroyed haction hdestroy =>
      obtain ⟨hcalls, -, -, hmarks⟩ := service_destroy hdestroy
      exact hsame hcalls (fun id hid => hmarks id (.inl hid))
    | terminated process rest hbefore hsnapshot hservice =>
      exact hsame (by rw [hservice]) (fun id hid => by rwa [hservice])
    | left hexit =>
      obtain ⟨hcalls, -, hmarks⟩ := service_exit hexit
      exact hsame hcalls (fun id hid => by rwa [hmarks])

structure Good (requestId : Text) (s : System C) : Prop where
  base : Inv (fun _ => requestId) s.service
  kept : ∀ c, Kept requestId s c
  ok : s.activity.Ok s.removed
  taken : s.snapshot.isSome = true → s.activity.terminal = true
  dead : s.service.exited = true → s.snapshot = some []
  still : s.activity.abandoned = true ∨ s.snapshot.isSome = true → Still requestId s
  covered : ∀ processes, s.snapshot = some processes →
    ∀ c, (s.service.calls c).process.isSome = true → Ended s c ∨ c ∈ processes

theorem Good.terminal (hgood : Good requestId s)
    (h : s.activity.abandoned = true ∨ s.snapshot.isSome = true) : s.activity.terminal = true := by
  obtain h | h := h
  · unfold Activity.abandoned at h
    rw [Bool.or_eq_true, decide_eq_true_eq] at h
    obtain h | h := h
    · exact hgood.ok.published h
    · simp [Activity.terminal, h]
  · exact hgood.taken h

theorem destroy_still (hgood : Good requestId s) (hclear : Clear requestId s .destroy)
    (h : step requestId s .destroy = some t) : Still requestId t := by
  simp only [step] at h
  split at h
  case isFalse => cases h
  rename_i hremoved
  rw [Bool.and_eq_true] at hremoved
  obtain ⟨service, hdestroy, rfl⟩ := Option.map_eq_some_iff.mp h
  obtain ⟨hcalls, -, -, hmarks⟩ := service_destroy hdestroy
  obtain ⟨-, hcommand⟩ := hgood.ok.removed hremoved.1
  refine ⟨?_, fun c => ⟨?_, ?_⟩⟩
  · rintro ⟨hfinds, -⟩
    simp [hcommand] at hfinds
  · rintro (⟨hcalling, hidle⟩ | hstarting)
    · exact (hclear c).1 (.inl ⟨hcalling, by rwa [← hcalls]⟩)
    · exact (hclear c).1 (.inr (by rwa [← hcalls]))
  · rintro ⟨hpoint, hunmarked⟩
    have hbusy : (s.service.calls c).point.busy = true := by
      simp only [hcalls] at hpoint
      obtain hp | hp := hpoint <;> rw [hp] <;> rfl
    exact hunmarked (hmarks _ (.inr (hgood.base.running c hbusy)))

theorem still_next (hgood : Good requestId s) (hclear : Clear requestId s action)
    (h : step requestId s action = some t)
    (ht : t.activity.abandoned = true ∨ t.snapshot.isSome = true) : Still requestId t := by
  by_cases hs : s.activity.abandoned = true ∨ s.snapshot.isSome = true
  · exact still_kept hgood.base (hgood.terminal hs) (hgood.still hs) h
  · have halive : s.service.exited = false := by
      by_contra hexited
      rw [Bool.not_eq_false] at hexited
      exact hs (.inr (by rw [hgood.dead hexited]; rfl))
    obtain habandoned | hsnapshot := ht
    · obtain hold | rfl | ⟨rfl, hcompletion⟩ := abandoned_next h habandoned
      · exact absurd (.inl hold) hs
      · obtain ⟨hlost, hcalls⟩ := hclear halive
        simp only [step] at h
        split at h <;> cases h
        exact ⟨hlost, hcalls⟩
      · have hcalls := hclear hcompletion halive
        obtain ⟨hcommand, -, hexecution, -, hservice⟩ := cleanup_fields hgood.ok
        simp only [step, hcompletion, Option.some.injEq] at h
        subst h
        refine ⟨fun hfinds => ?_, fun c => ⟨?_, ?_⟩⟩
        · have hc : s.cleanupUserService.activity.commandService = true := hfinds.1
          rw [hcommand] at hc
          cases hc
        · rintro (⟨hcalling, hidle⟩ | hstarting)
          · refine (hcalls c).1 (.inl ⟨?_, ?_⟩)
            · rw [← hexecution]
              exact hcalling
            · rw [← hservice]
              exact hidle
          · refine (hcalls c).1 (.inr ?_)
            rw [← hservice]
            exact hstarting
        · rintro ⟨hpoint, hunmarked⟩
          refine (hcalls c).2 ⟨?_, ?_⟩
          · rw [← hservice]
            exact hpoint
          · rw [← hservice]
            exact hunmarked
    · obtain hold | rfl := snapshot_next h hsnapshot
      · exact absurd (.inr hold) hs
      · exact destroy_still hgood hclear h

theorem service_alive {a : Cancellation.Action C C} {u : Service C C}
    (h : Cancellation.step (fun _ => requestId) s.service a = some u) : s.service.exited = false := by
  by_contra hexited
  rw [Bool.not_eq_false] at hexited
  simp [Cancellation.step, hexited] at h

theorem called_alive {c : C} {a : CallAction C} {u : Service C C}
    (h : Cancellation.step (fun _ => requestId) s.service (.call c a) = some u) : u.exited = false := by
  have halive := service_alive h
  by_cases ha : a = .execute
  · subst ha
    rw [(service_execute h).2.2.1, halive]
  · obtain ⟨-, next, -, rfl⟩ := step_call ha h
    rw [← halive]
    cases a with
    | put => cases hp : (s.service.calls c).process <;> simp [Service.touch, Service.setCall, hp]
    | publish outputFailure written => cases written <;> rfl
    | _ => rfl

theorem dead_next (hgood : Good requestId s) (h : step requestId s action = some t)
    (ht : t.service.exited = true) : t.snapshot = some [] := by
  cases step_effect h with
  | outside hservice hsnapshot =>
    rw [hsnapshot]
    exact hgood.dead (by rwa [← hservice])
  | cancelled hcancel =>
    rw [(service_cancel hcancel).2.2.1, service_alive hcancel] at ht
    cases ht
  | called c a hallow hcall =>
    rw [called_alive hcall] at ht
    cases ht
  | destroyed haction hdestroy =>
    rw [(service_destroy hdestroy).2.2.1, service_alive hdestroy] at ht
    cases ht
  | terminated process rest hbefore hsnapshot hservice =>
    have hempty := hgood.dead (by rwa [← hservice])
    rw [hbefore] at hempty
    cases hempty
  | left hexit hbefore hsnapshot => exact hsnapshot

theorem process_next {c : C} {a : CallAction C} (hpoint : (s.service.calls c).point ≠ .starting)
    (ha : a ≠ .execute)
    (h : Cancellation.step (fun _ => requestId) s.service (.call c a) = some t.service) (c' : C) :
    (t.service.calls c').process = (s.service.calls c').process := by
  obtain ⟨-, next, hnext, hservice⟩ := step_call ha h
  by_cases hc : c' = c
  · subst hc
    rw [hservice, setCall_self]
    cases a with
    | execute => cases hnext
    | start process => simp [Call.step, hpoint] at hnext
    | poll cancelFile exitValue expired =>
      simp only [Call.step] at hnext
      split at hnext
      · split at hnext
        · cases hnext
          rfl
        · split at hnext <;> cases hnext <;> rfl
      · cases hnext
    | finish =>
      simp only [Call.step] at hnext
      split at hnext <;> cases hnext <;> rfl
    | _ =>
      simp only [Call.step] at hnext
      split_ifs at hnext <;> cases hnext <;> rfl
  · rw [hservice, setCall_other hc, touch_calls]

/-- When `destroy` takes its copy, a process that it misses has been dealt with. -/
theorem destroy_covers (hgood : Good requestId s) (hclear : Clear requestId s .destroy) (c : C)
    (hsome : (s.service.calls c).process.isSome = true) :
    Ended s c ∨ (requestId, c) ∈ s.service.activeProcesses := by
  by_contra hmissed
  rw [not_or] at hmissed
  obtain ⟨hended, hunregistered⟩ := hmissed
  obtain ⟨howes, -⟩ := ((hgood.kept c).owing hsome).resolve_left hended
  have htable : ¬inTable (s.service.calls c).point = true := fun h => hunregistered ((hgood.kept c).held h)
  refine (hclear c).2 ⟨?_, hsome, hunregistered, hended⟩
  cases hp : (s.service.calls c).point <;> simp_all [owesStop, inTable]

theorem covered_next (hgood : Good requestId s) (hclear : Clear requestId s action)
    (h : step requestId s action = some t) (processes : List C) (ht : t.snapshot = some processes)
    (c : C) (hsome : (t.service.calls c).process.isSome = true) : Ended t c ∨ c ∈ processes := by
  cases step_effect h with
  | outside hservice hsnapshot hexited hasked =>
    rw [hsnapshot] at ht
    rw [hservice] at hsome
    exact (hgood.covered processes ht c hsome).imp_left (Or.imp (hexited c) (hasked c))
  | cancelled hcancel hsnapshot hexited hasked =>
    rw [hsnapshot] at ht
    rw [(service_cancel hcancel).1] at hsome
    unfold Ended
    rw [hexited, hasked]
    exact hgood.covered processes ht c hsome
  | called c' a hallow hcall hactivity hsnapshot hexited hasked =>
    rw [hsnapshot] at ht
    have hstill := hgood.still (.inr (by rw [ht]; rfl))
    have ha : a ≠ .execute := by
      rintro rfl
      refine (hstill.calls c').1 (.inl ⟨?_, (service_execute hcall).1⟩)
      simpa [System.allows] using hallow
    rw [process_next (fun hp => (hstill.calls c').1 (.inr hp)) ha hcall c] at hsome
    exact (hgood.covered processes ht c hsome).imp_left (Or.imp (fun hc => by rwa [hexited]) (hasked c))
  | destroyed haction hdestroy hremoved hsnapshot hexited hasked =>
    subst haction
    rw [(service_destroy hdestroy).1] at hsome
    rw [hsnapshot] at ht
    cases ht
    unfold Ended
    rw [hexited, hasked]
    exact (destroy_covers hgood hclear c hsome).imp_right (List.mem_map_of_mem (f := Prod.snd))
  | terminated process rest hbefore hsnapshot hservice hexited hasked hprocess =>
    rw [hsnapshot] at ht
    cases ht
    rw [hservice] at hsome
    obtain hended | hmem := hgood.covered _ hbefore c hsome
    · exact .inl (hended.imp (fun hc => by rwa [hexited]) (hasked c))
    · obtain rfl | hmem := List.mem_cons.mp hmem
      · exact .inl (.inr hprocess)
      · exact .inr hmem
  | left hexit hbefore hsnapshot hexited hasked =>
    rw [hsnapshot, ← hbefore] at ht
    rw [(service_exit hexit).1] at hsome
    unfold Ended
    rw [hexited, hasked]
    exact hgood.covered processes ht c hsome

theorem good_next (hgood : Good requestId s) (hclear : Clear requestId s action)
    (h : step requestId s action = some t) : Good requestId t where
  base := base_next hgood.base h
  kept := kept_next hgood.base hgood.kept h
  ok := ok_next hgood.ok h
  taken ht := by
    obtain hold | rfl := snapshot_next h ht
    · exact (calmer_next (hgood.taken hold) h).terminal
    · have hremoved : s.removed = true := by
        simp only [step] at h
        split at h
        · rename_i hguard
          exact (Bool.and_eq_true_iff.mp hguard).1
        · cases h
      exact (calmer_next (hgood.ok.removed hremoved).1 h).terminal
  dead := dead_next hgood h
  still := still_next hgood hclear h
  covered := covered_next hgood hclear h

theorem good_new : Good requestId (System.new : System C) where
  base := inv_new
  kept c := ⟨by simp [System.new, Service.new, Call.new], by simp [System.new, Service.new, Call.new],
    by simp [System.new, Service.new, Call.new], by simp [System.new, Service.new, Call.new, inTable],
    by simp [System.new, Service.new, Call.new], by simp [System.new, Service.new, Call.new]⟩
  ok := ⟨by simp [System.new], by simp [System.new], by simp [System.new], by simp [System.new]⟩
  taken := by simp [System.new]
  dead := by simp [System.new, Service.new]
  still := by simp [System.new, Activity.abandoned]
  covered := by simp [System.new]

theorem no_start (hstill : Still requestId s) (c process : C) :
    step requestId s (.call c (.start (some process))) = none := by
  have hpoint : (s.service.calls c).point ≠ .starting := fun hp => (hstill.calls c).1 (.inr hp)
  simp [step, Cancellation.step, Call.step, hpoint]

/-- In a run whose steps are all clear, an abandoned request leaves no command. -/
theorem safe_of_clear (requestId : Text) (acts : List (Action C)) (t : System C)
    (hclear : Along (step requestId) (Clear requestId) System.new acts)
    (h : exec (step requestId) System.new acts = some t) : Safe requestId t := by
  have hgood : Good requestId t :=
    exec_along (Good requestId) (fun _ _ _ hs ha hstep => good_next hs ha hstep) good_new hclear h
  intro habandoned
  refine ⟨no_start (hgood.still (.inl habandoned)), ?_⟩
  intro hexited c hsome
  obtain hended | hmem := hgood.covered [] (hgood.dead hexited) c hsome
  · exact hended
  · cases hmem

instance (s : System C) (c : C) : Decidable (OnItsWay s c) := by
  unfold OnItsWay
  infer_instance

instance (requestId : Text) (s : System C) (c : C) : Decidable (Unwarned requestId s c) := by
  unfold Unwarned
  infer_instance

instance (s : System C) (c : C) : Decidable (Ended s c) := by
  unfold Ended
  infer_instance

instance (requestId : Text) (s : System C) (c : C) : Decidable (Unregistered requestId s c) := by
  unfold Unregistered
  infer_instance

instance [Fintype C] (s : System C) : Decidable (Finds s) := by
  unfold Finds
  infer_instance

instance [Fintype C] (requestId : Text) (s : System C) (action : Action C) :
    Decidable (Clear requestId s action) := by
  cases action <;> unfold Clear <;> infer_instance

/-- A call up to the look at its mark. -/
def checkedRun : List (Action Unit) :=
  [.available true, .connected, .threadStart (), .fetch (), .call () .execute,
    .call () (.prepare true), .call () (.check false)]

/-- `completeHostCancellation` from its first step to its last. -/
def cancellationRun : List (Action Unit) :=
  [.hostCancellation, .read, .cancel, .stopProcess, .cleanup]

theorem safe_of_clear_cancelled : ∃ t, exec (step (List.replicate 32 'a')) (System.new : System Unit)
    (checkedRun ++ [.call () (.start (some ())), .call () .put] ++ cancellationRun ++
      [.destroy, .terminate, .exit]) = some t ∧ Safe (List.replicate 32 'a') t := by
  have hclear : Along (step (List.replicate 32 'a')) (Clear (List.replicate 32 'a'))
      (System.new : System Unit) (checkedRun ++ [.call () (.start (some ())), .call () .put] ++
        cancellationRun ++ [.destroy, .terminate, .exit]) := by
    decide +kernel
  have hrun : (exec (step (List.replicate 32 'a')) (System.new : System Unit)
      (checkedRun ++ [.call () (.start (some ())), .call () .put] ++ cancellationRun ++
        [.destroy, .terminate, .exit])).isSome = true := by
    decide +kernel
  obtain ⟨t, ht⟩ := Option.isSome_iff_exists.mp hrun
  exact ⟨t, ht, safe_of_clear _ _ t hclear ht⟩

/-- The process is started and not yet in `activeProcesses` when the request is
cancelled: `destroy` does not know it. -/
theorem not_safe_orphan : ∃ t, exec (step (List.replicate 32 'a')) (System.new : System Unit)
    (checkedRun ++ [.call () (.start (some ()))] ++ cancellationRun ++ [.destroy, .exit]) = some t ∧
      ¬Safe (List.replicate 32 'a') t := by
  have hrun : (exec (step (List.replicate 32 'a')) (System.new : System Unit)
      (checkedRun ++ [.call () (.start (some ()))] ++ cancellationRun ++ [.destroy, .exit])).any
        (fun t => t.activity.abandoned && t.service.exited && (t.service.calls ()).process.isSome &&
          !t.exited () && !t.asked ()) = true := by
    decide +kernel
  obtain ⟨t, ht, hleft⟩ := (Option.any_eq_true _ _).mp hrun
  refine ⟨t, ht, ?_⟩
  intro hsafe
  simp only [Bool.and_eq_true, Bool.not_eq_true'] at hleft
  obtain ⟨⟨⟨⟨habandoned, hexited⟩, hsome⟩, halive⟩, hasked⟩ := hleft
  obtain hended | hended := (hsafe habandoned).2 hexited () hsome
  · rw [halive] at hended
    cases hended
  · rw [hasked] at hended
    cases hended

/-- The call is past its look at the mark when the request is cancelled. -/
theorem not_safe_late : ∃ t, exec (step (List.replicate 32 'a')) (System.new : System Unit)
    (checkedRun ++ cancellationRun) = some t ∧ ¬Safe (List.replicate 32 'a') t := by
  have hrun : (exec (step (List.replicate 32 'a')) (System.new : System Unit)
      (checkedRun ++ cancellationRun)).any (fun t => t.activity.abandoned &&
        (step (List.replicate 32 'a') t (.call () (.start (some ())))).isSome) = true := by
    decide +kernel
  obtain ⟨t, ht, hlate⟩ := (Option.any_eq_true _ _).mp hrun
  refine ⟨t, ht, ?_⟩
  intro hsafe
  rw [Bool.and_eq_true] at hlate
  obtain ⟨habandoned, hstarts⟩ := hlate
  rw [(hsafe habandoned).1 () ()] at hstarts
  cases hstarts

end OpenAdb.Shizuku.Abandonment
