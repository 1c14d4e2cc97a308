import OpenAdb.Acbridge.UpdateScheduler

namespace OpenAdb.Acbridge.UpdateScheduler

open OpenAdb.Lib.PyText OpenAdb.Lib.Runs
open OpenAdb.Context.Device (DeviceManager DeviceContext)
open OpenAdb.Context.Device.DeviceManager (Counts deviceIdentity)

variable {τ π : Type}

theorem serial_of_identity {a b : OpenAdb.Context.Device.DeviceInfo} (h : deviceIdentity a = deviceIdentity b) :
    a.serial = b.serial := by
  have hfirst : ∀ d : OpenAdb.Context.Device.DeviceInfo, (deviceIdentity d).1 = d.serial := by
    intro d
    rw [deviceIdentity]
    split_ifs with hempty
    · exact (List.isEmpty_iff.mp hempty).symm
    · rfl
  rw [← hfirst a, ← hfirst b, h]

namespace MainWindow

/-- The key of every context that is current. -/
def currentKey (d : DeviceManager τ π) : Key := (d.active.serial, d.generation)

/-- The workers started for a key. -/
def runs (s : MainWindow τ π) (key : Key) : Nat := (s.starts.filter (fun start => start.key = key)).length

/-- A key of the device in its present generation, or of an earlier one. -/
def Past (d : DeviceManager τ π) (key : Key) : Prop :=
  key.2 < d.generation ∨ key = currentKey d

/-- The attempts of a key are counted up to the third start, after which the key stays the last one. -/
def Budget (s : MainWindow τ π) (key : Key) : Prop :=
  s.runs key ≤ 2 ∧ s.runs key ≤ s.attempts key ∨ 3 ≤ s.attempts key ∧ s.lastUpdateKey = some key

structure Sound (s : MainWindow τ π) : Prop where
  single : s.workers.length ≤ 1
  held : ∀ token ∈ s.workers, s.updateToken = some token
  pending : s.pendingUpdateContext ≠ none → s.updateToken ≠ none
  current : ∀ start ∈ s.starts, start.current = true
  past : ∀ start ∈ s.starts, Past s.deviceManager start.key
  budget : s.closing = false → s.Budget (currentKey s.deviceManager)
  three : ∀ key, s.runs key ≤ 3

theorem Past.later {d e : DeviceManager τ π} {key : Key} (h : Past d key) (hcounts : Counts d e) : Past e key := by
  obtain hlt | rfl := h
  · exact .inl (hlt.trans_le hcounts.generation)
  · obtain heq | hlt := hcounts.generation.eq_or_lt
    · have hserial := serial_of_identity (hcounts.target heq.symm).device
      exact .inr (Prod.ext hserial.symm heq)
    · exact .inl hlt

theorem sound_new (d : DeviceManager τ π) : Sound (new d) where
  single := Nat.zero_le _
  held _ h := absurd h List.not_mem_nil
  pending h := absurd rfl h
  current _ h := absurd h List.not_mem_nil
  past _ h := absurd h List.not_mem_nil
  budget _ := .inl ⟨Nat.zero_le _, Nat.zero_le _⟩
  three _ := Nat.zero_le _

variable {s t : MainWindow τ π} {context : DeviceContext π} {token : OperationToken π}

theorem runs_eq_zero {key : Key} (h : ∀ start ∈ s.starts, start.key ≠ key) : s.runs key = 0 := by
  rw [runs, List.length_eq_zero_iff, List.filter_eq_nil_iff]
  intro start hstart
  simpa using h start hstart

theorem Sound.device (h : Sound s) {d : DeviceManager τ π} (hcounts : Counts s.deviceManager d) :
    Sound { s with deviceManager := d } where
  single := h.single
  held := h.held
  pending := h.pending
  current := h.current
  past start hstart := (h.past start hstart).later hcounts
  budget hopen := by
    obtain heq | hlt := hcounts.generation.eq_or_lt
    · have hserial := serial_of_identity (hcounts.target heq.symm).device
      have hkey : currentKey d = currentKey s.deviceManager := Prod.ext hserial heq.symm
      rw [hkey]
      exact h.budget hopen
    · refine .inl ?_
      have hnone : runs { s with deviceManager := d } (currentKey d) = 0 := by
        refine runs_eq_zero fun start hstart hkey => ?_
        obtain hearly | hnow := h.past start hstart
        · rw [hkey] at hearly
          exact absurd (hearly.trans hlt) (lt_irrefl _)
        · have hgeneration := congrArg Prod.snd (hkey.symm.trans hnow)
          exact absurd hgeneration hlt.ne'
      rw [hnone]
      exact ⟨Nat.zero_le _, Nat.zero_le _⟩
  three := h.three

theorem Sound.setBusy (h : Sound s) (busy : Bool) : Sound (s.setBusy busy) :=
  ⟨h.single, h.held, h.pending, h.current, h.past, h.budget, h.three⟩

theorem Sound.singleShot (h : Sound s) (callback : Callback π) : Sound (s.singleShot callback) :=
  ⟨h.single, h.held, h.pending, h.current, h.past, h.budget, h.three⟩

theorem Sound.queueRetry (h : Sound s) (context : DeviceContext π) : Sound (s.queueRetry context) := by
  rw [MainWindow.queueRetry]
  split_ifs
  · exact h
  · exact ⟨h.single, h.held, h.pending, h.current, h.past, h.budget, h.three⟩

theorem Sound.releaseIfIdle (h : Sound s) : Sound s.releaseIfIdle := by
  rw [MainWindow.releaseIfIdle]
  split_ifs
  · exact h
  · exact h.setBusy false

theorem Sound.close (h : Sound s) : Sound s.close :=
  ⟨h.single, h.held, fun hpending => absurd rfl hpending, h.current, h.past, fun hopen => (by cases hopen), h.three⟩

theorem keepToken_attempts (s : MainWindow τ π) (context : DeviceContext π) :
    (s.keepToken context).attempts (keyOf context) = s.attempts (keyOf context) + 1 := by
  rw [attempts, keepToken, List.lookup_cons, beq_self_eq_true]
  rfl

theorem runs_started (s : MainWindow τ π) (key other : Key) (current : Bool) :
    runs { s with starts := ⟨key, current⟩ :: s.starts } other = s.runs other + if key = other then 1 else 0 := by
  rw [runs, List.filter_cons]
  by_cases heq : key = other
  · rw [if_pos (decide_eq_true heq), if_pos heq, List.length_cons]
    rfl
  · rw [if_neg (by simpa using heq), if_neg heq]
    rfl

theorem queueRetry_owes (s : MainWindow τ π) (context : DeviceContext π) (hopen : s.closing = false) :
    (s.queueRetry context).Owes := by
  rw [queueRetry]
  split_ifs with hwaits
  · have hkey := hwaits.resolve_left (by rw [hopen]; exact Bool.false_ne_true)
    exact .inr (.inl (by rw [hkey]; exact Option.some_ne_none _))
  · exact .inr (.inl (Option.some_ne_none _))

/-- While the window is open, a barrier that is on has something to come. -/
def Covered (s : MainWindow τ π) : Prop := s.closing = false → s.busyCalls.head? = some true → s.Owes

theorem singleShot_owes (s : MainWindow τ π) : (s.singleShot .release).Owes :=
  .inr (.inr (.inl (List.mem_append_right _ List.mem_cons_self)))

theorem mem_erased {index : Nat} {callback other : Callback π} (hat : s.timers[index]? = some callback)
    (hmem : other ∈ s.timers) (hne : other ≠ callback) : other ∈ s.timers.eraseIdx index := by
  obtain ⟨i, hi⟩ := List.mem_iff_getElem?.mp hmem
  refine List.mem_eraseIdx_iff_getElem?.mpr ⟨i, fun heq => hne ?_, hi⟩
  rw [heq, hat] at hi
  exact (Option.some.inj hi).symm

theorem Covered.fireRelease (h : Sound s) : Covered s.releaseIfIdle := by
  intro hopen hbusy
  by_cases hpending : (s.closing || s.workflowPending) = true
  · rw [releaseIfIdle, if_pos hpending] at hopen hbusy ⊢
    rw [hopen, Bool.false_or, workflowPending, Bool.or_eq_true, Bool.or_eq_true, Option.isSome_iff_ne_none,
      Option.isSome_iff_ne_none, Option.isSome_iff_ne_none] at hpending
    obtain (htoken | hretry) | hwaiting := hpending
    · exact .inl htoken
    · exact .inr (.inl hretry)
    · exact .inl (h.pending hwaiting)
  · rw [releaseIfIdle, if_neg hpending] at hbusy
    cases hbusy

theorem Covered.retryAttempt (h : Covered s) (context : DeviceContext π) (hopen : s.closing = false) :
    Covered (s.retryAttempt context) := by
  rw [MainWindow.retryAttempt]
  by_cases hfew : s.attempts (keyOf context) < 3
  · rw [if_pos hfew]
    exact fun _ _ => queueRetry_owes _ context hopen
  · rw [if_neg hfew]
    exact h

variable {u : UnicodeData} [DecidableEq π]

theorem keyOf_current (h : s.isCurrent u context = true) : keyOf context = currentKey s.deviceManager := by
  rw [isCurrent, DeviceManager.isContextCurrent] at h
  split_ifs at h with hstale
  simp only [Bool.and_eq_true, decide_eq_true_eq] at h
  exact Prod.ext h.1.1.1.1.1 (not_not.mp (not_or.mp hstale).1)

/-- The end of a worker that is not the live one changes nothing; the other one leaves a callback behind, or a
retry that waits already. -/
theorem finished_cases (s : MainWindow τ π) (token : OperationToken π) :
    s.updateToken ≠ some token ∧ s.finished u token = s ∨
      s.updateToken = some token ∧ ∃ added,
        s.finished u token =
          { s with updateToken := none, pendingUpdateContext := none, timers := s.timers ++ added } ∧
        (s.closing = true ∨ s.updateRetryKey ≠ none ∨ .release ∈ added ∨ ∃ context, .resume context ∈ added) := by
  by_cases htoken : s.updateToken = some token
  · refine .inr ⟨htoken, ?_⟩
    rw [MainWindow.finished, if_neg (not_not.mpr htoken)]
    dsimp only
    by_cases hclosing : s.closing = true
    · exact ⟨[], by rw [if_pos hclosing, List.append_nil], .inl hclosing⟩
    · rw [if_neg hclosing]
      split
      case h_1 context _ => exact ⟨[.resume context], rfl, .inr (.inr (.inr ⟨context, List.mem_cons_self⟩))⟩
      case h_2 =>
        by_cases hretry : s.updateRetryKey.isSome = true
        · exact ⟨[], by rw [if_pos hretry, List.append_nil], .inr (.inl (Option.isSome_iff_ne_none.mp hretry))⟩
        · exact ⟨[.release], by rw [if_neg hretry]; rfl, .inr (.inr (.inl List.mem_cons_self))⟩
  · exact .inl ⟨htoken, if_pos htoken⟩

theorem Sound.finished (h : Sound s) (hworkers : s.workers = []) (token : OperationToken π) :
    Sound (s.finished u token) := by
  obtain ⟨-, heq⟩ | ⟨-, added, heq, -⟩ := finished_cases (u := u) s token
  · rw [heq]
    exact h
  · have hnone : ∀ other ∈ s.workers, (none : Option (OperationToken π)) = some other := by
      rw [hworkers]
      exact fun _ hother => absurd hother List.not_mem_nil
    rw [heq]
    exact ⟨h.single, hnone, fun hpending => absurd rfl hpending, h.current, h.past, h.budget, h.three⟩

theorem Sound.retryAttempt (h : Sound s) (hcurrent : s.isCurrent u context = true) :
    Sound (s.retryAttempt context) := by
  rw [MainWindow.retryAttempt]
  by_cases hfew : s.attempts (keyOf context) < 3
  · rw [if_pos hfew]
    refine Sound.queueRetry ?_ context
    refine ⟨h.single, h.held, h.pending, h.current, h.past, fun hopen => ?_, h.three⟩
    obtain hbudget | ⟨hmany, -⟩ := h.budget hopen
    · exact .inl hbudget
    · rw [← keyOf_current hcurrent] at hmany
      exact absurd hmany (Nat.not_le.mpr hfew)
  · rw [if_neg hfew]
    exact h

theorem Sound.launch (h : Sound s) (hopen : s.closing = false) (htoken : s.updateToken = none)
    (hcurrent : s.isCurrent u context = true) (hlast : s.lastUpdateKey ≠ some (keyOf context)) (outcome : Launch) :
    Sound (s.launch u context outcome).2 := by
  have hkey := keyOf_current hcurrent
  have hworkers : s.workers = [] := by
    refine List.eq_nil_iff_forall_not_mem.mpr fun token hmem => ?_
    have hheld := h.held token hmem
    rw [htoken] at hheld
    cases hheld
  have hnone : ∀ (o : Option (OperationToken π)), ∀ other ∈ s.workers, o = some other := by
    rw [hworkers]
    exact fun _ _ hother => absurd hother List.not_mem_nil
  have hidle : s.pendingUpdateContext = none := by
    by_contra hpending
    exact h.pending hpending htoken
  obtain ⟨htwo, hcounted⟩ : s.runs (keyOf context) ≤ 2 ∧ s.runs (keyOf context) ≤ s.attempts (keyOf context) := by
    have hbudget := h.budget hopen
    rw [← hkey] at hbudget
    exact hbudget.resolve_right fun hspent => hlast hspent.2
  have hattempts := keepToken_attempts s context
  have hrestart : ∀ t : MainWindow τ π, t.starts = s.starts → t.updateAttempts = (s.keepToken context).updateAttempts →
      t.Budget (currentKey s.deviceManager) := by
    intro t hstarts hcount
    rw [← hkey]
    refine .inl ⟨?_, ?_⟩
    · rw [runs, hstarts]
      exact htwo
    · rw [runs, hstarts, attempts, hcount, ← attempts, hattempts]
      exact hcounted.trans (Nat.le_succ _)
  cases outcome with
  | started =>
    have hruns := fun key => runs_started (s.keepToken context) (keyOf context) key (s.isCurrent u context)
    have hown := hruns (keyOf context)
    rw [if_pos rfl] at hown
    refine ⟨?_, ?_, fun _ hnot => (by cases hnot), ?_, ?_, fun _ => ?_, ?_⟩
    · change (⟨s.nextRef, context⟩ :: s.workers : List (OperationToken π)).length ≤ 1
      rw [hworkers]
      rfl
    · intro token hmem
      change token ∈ (⟨s.nextRef, context⟩ :: s.workers : List (OperationToken π)) at hmem
      rw [hworkers, List.mem_singleton] at hmem
      rw [hmem]
      rfl
    · intro start hstart
      obtain rfl | hstart := List.mem_cons.mp hstart
      · exact hcurrent
      · exact h.current start hstart
    · intro start hstart
      obtain rfl | hstart := List.mem_cons.mp hstart
      · exact .inr hkey
      · exact h.past start hstart
    · change Budget _ (currentKey s.deviceManager)
      rw [← hkey]
      by_cases hlate : 3 ≤ s.attempts (keyOf context) + 1
      · exact .inr ⟨hlate.trans hattempts.ge, rfl⟩
      · refine .inl ⟨?_, ?_⟩
        · refine hown.trans_le ?_
          change s.runs (keyOf context) + 1 ≤ 2
          omega
        · refine hown.trans_le (le_trans ?_ hattempts.ge)
          change s.runs (keyOf context) + 1 ≤ _
          omega
    · intro key
      by_cases heq : keyOf context = key
      · rw [← heq]
        refine hown.trans_le ?_
        change s.runs (keyOf context) + 1 ≤ 3
        omega
      · have hother := hruns key
        rw [if_neg heq] at hother
        exact hother.trans_le (h.three key)
  | refused =>
    refine @Sound.finished _ _ { s.keepToken context with lastUpdateKey := none } u _ ?_ hworkers _
    exact ⟨h.single, hnone _, fun _ hnot => (by cases hnot), h.current, h.past, fun _ => hrestart _ rfl rfl,
      h.three⟩
  | runtimeError =>
    refine @Sound.singleShot _ _ { s.keepToken context with updateToken := none, lastUpdateKey := none } ?_ _
    exact ⟨h.single, hnone _, fun hpending => absurd hidle hpending, h.current, h.past,
      fun _ => hrestart _ rfl rfl, h.three⟩

theorem launch_owes (s : MainWindow τ π) (context : DeviceContext π) (outcome : Launch)
    (hopen : s.closing = false) : (s.launch u context outcome).2.Owes := by
  cases outcome with
  | started => exact .inl (fun hnone => by cases hnone)
  | refused =>
    obtain ⟨hother, -⟩ | ⟨-, added, heq, howes⟩ := finished_cases (u := u) { s.keepToken context with lastUpdateKey := none }
      ⟨s.nextRef, context⟩
    · exact absurd rfl hother
    · change Owes (MainWindow.finished u { s.keepToken context with lastUpdateKey := none } _)
      rw [heq]
      obtain hclosing | hretry | hrelease | ⟨next, hresume⟩ := howes
      · exact absurd (hclosing.symm.trans hopen) (by decide)
      · exact absurd rfl hretry
      · exact .inr (.inr (.inl (List.mem_append_right _ hrelease)))
      · exact .inr (.inr (.inr ⟨next, List.mem_append_right _ hresume⟩))
  | runtimeError => exact .inr (.inr (.inl (List.mem_append_right _ List.mem_cons_self)))

theorem open_of_current {token : OperationToken π} {live : Bool} (h : s.callbackIsCurrent u token live = true) :
    s.closing = false := by
  simp only [callbackIsCurrent, Bool.and_eq_true, Bool.not_eq_true'] at h
  exact h.1.1.1

variable [DecidableEq τ]

/-- What scheduling an update can do. -/
theorem schedule_cases {registration : Registration τ π} {started : Bool}
    (h : s.schedule u context registration = some (started, t)) :
    (t = s ∧ started = false ∧ (s.isCurrent u context = true → s.lastUpdateKey ≠ some (keyOf context) →
        s.closing = true)) ∨
      s.closing = false ∧
        ((∃ token pending, s.updateToken = some token ∧ t = { s.setBusy true with pendingUpdateContext := pending }) ∨
          s.updateToken = none ∧
            (t = (s.setBusy true).queueRetry context ∨ t = (s.setBusy true).singleShot .release ∨
              ∃ d, Counts s.deviceManager d ∧
                (t = { s.setBusy true with deviceManager := d }.singleShot .release ∨
                  isCurrent u { s.setBusy true with deviceManager := d } context = true ∧
                    s.lastUpdateKey ≠ some (keyOf context) ∧
                    ∃ outcome, t = (launch u { s.setBusy true with deviceManager := d } context outcome).2))) := by
  rw [schedule] at h
  by_cases hstop : (s.closing || !s.isCurrent u context) = true
  · rw [if_pos hstop] at h
    cases h
    refine .inl ⟨rfl, rfl, fun hcurrent _ => ?_⟩
    rw [hcurrent, Bool.not_true, Bool.or_false] at hstop
    exact hstop
  rw [if_neg hstop] at h
  have hopen : s.closing = false := by
    rw [Bool.or_eq_true, not_or] at hstop
    exact Bool.eq_false_iff.mpr hstop.1
  cases htoken : s.updateToken with
  | some token =>
    rw [htoken] at h
    refine .inr ⟨hopen, .inl ⟨token, ?_⟩⟩
    dsimp only at h
    split_ifs at h
    · cases h
      exact ⟨_, rfl, rfl⟩
    · cases h
      exact ⟨_, rfl, rfl⟩
  | none =>
    rw [htoken] at h
    dsimp only at h
    by_cases hlast : s.lastUpdateKey = some (keyOf context)
    · rw [if_pos hlast] at h
      cases h
      exact .inl ⟨rfl, rfl, fun _ hnot => absurd hlast hnot⟩
    rw [if_neg hlast] at h
    refine .inr ⟨hopen, .inr ⟨rfl, ?_⟩⟩
    cases registration with
    | operationConflict =>
      cases h
      exact .inl rfl
    | runtimeError =>
      cases h
      exact .inr (.inl rfl)
    | registered meanwhile outcome =>
      dsimp only at h
      cases hexec : exec (DeviceManager.step u) (s.setBusy true).deviceManager meanwhile with
      | none =>
        rw [hexec] at h
        cases h
      | some d =>
        rw [hexec] at h
        dsimp only at h
        refine .inr (.inr ⟨d, DeviceManager.exec_counts hexec, ?_⟩)
        split_ifs at h with hgone
        · cases h
          exact .inl rfl
        · exact .inr ⟨(Bool.not_eq_false _).mp hgone, hlast, outcome, (congrArg Prod.snd (Option.some.inj h)).symm⟩

theorem Sound.schedule (h : Sound s) {registration : Registration τ π} {started : Bool}
    (hrun : s.schedule u context registration = some (started, t)) : Sound t := by
  obtain ⟨rfl, -⟩ | ⟨hopen, ⟨token, pending, htoken, rfl⟩ | ⟨htoken, rfl | rfl | ⟨d, hcounts, rfl | ⟨hcurrent, hlast,
    outcome, rfl⟩⟩⟩⟩ := schedule_cases hrun
  · exact h
  · exact ⟨h.single, h.held, fun _ hnone => absurd (htoken.symm.trans hnone) (Option.some_ne_none token), h.current,
      h.past, h.budget, h.three⟩
  · exact (h.setBusy true).queueRetry context
  · exact (h.setBusy true).singleShot _
  · exact ((h.setBusy true).device hcounts).singleShot _
  · exact ((h.setBusy true).device hcounts).launch hopen htoken hcurrent hlast outcome

theorem schedule_owes {registration : Registration τ π} {started : Bool}
    (h : s.schedule u context registration = some (started, t)) :
    t = s ∧ started = false ∧ (s.isCurrent u context = true → s.lastUpdateKey ≠ some (keyOf context) →
        s.closing = true) ∨ t.Owes := by
  obtain hsame | ⟨hopen, ⟨token, pending, htoken, rfl⟩ | ⟨htoken, rfl | rfl | ⟨d, hcounts, rfl | ⟨hcurrent, hlast,
    outcome, rfl⟩⟩⟩⟩ := schedule_cases h
  · exact .inl hsame
  · exact .inr (.inl fun hnone => absurd (htoken.symm.trans hnone) (Option.some_ne_none token))
  · exact .inr (queueRetry_owes _ context hopen)
  · exact .inr (.inr (.inr (.inl (List.mem_append_right _ List.mem_cons_self))))
  · exact .inr (.inr (.inr (.inl (List.mem_append_right _ List.mem_cons_self))))
  · exact .inr (launch_owes _ context outcome hopen)

/-- A retry whose key is no longer the waiting one does nothing. -/
theorem retry_cases {key : Key} {registration : Registration τ π}
    (h : s.retry u context key registration = some t) :
    t = s ∧ s.updateRetryKey ≠ some key ∨
      t = { s with updateRetryKey := none }.singleShot .release ∨
      ∃ started later, schedule u { s with updateRetryKey := none } context registration = some (started, later) ∧
        (started = true ∧ t = later ∨ t = later.singleShot .release) := by
  rw [retry] at h
  by_cases hkey : s.updateRetryKey ≠ some key
  · rw [if_pos hkey] at h
    cases h
    exact .inl ⟨rfl, hkey⟩
  rw [if_neg hkey] at h
  dsimp only at h
  split_ifs at h
  · cases h
    exact .inr (.inl rfl)
  · refine .inr (.inr ?_)
    cases hschedule : schedule u { s with updateRetryKey := none } context registration with
    | none =>
      rw [hschedule] at h
      cases h
    | some outcome =>
      obtain ⟨started, later⟩ := outcome
      rw [hschedule] at h
      refine ⟨started, later, rfl, ?_⟩
      cases started with
      | false =>
        cases h
        exact .inr rfl
      | true =>
        cases h
        exact .inl ⟨rfl, rfl⟩

theorem Sound.fire (h : Sound s) {callback : Callback π} {registration : Registration τ π}
    (hrun : s.fire u callback registration = some t) : Sound t := by
  cases callback with
  | release =>
    cases hrun
    exact h.releaseIfIdle
  | resume context =>
    obtain ⟨⟨started, later⟩, hschedule, rfl⟩ := Option.map_eq_some_iff.mp hrun
    exact h.schedule hschedule
  | retry context key =>
    have hwaiting : Sound { s with updateRetryKey := none } :=
      ⟨h.single, h.held, h.pending, h.current, h.past, h.budget, h.three⟩
    obtain ⟨rfl, -⟩ | rfl | ⟨started, later, hschedule, ⟨-, rfl⟩ | rfl⟩ := retry_cases hrun
    · exact h
    · exact hwaiting.singleShot _
    · exact hwaiting.schedule hschedule
    · exact (hwaiting.schedule hschedule).singleShot _

theorem Sound.step (h : Sound s) {e : Event τ π} (hstep : step u s e = some t) : Sound t := by
  cases e with
  | device action =>
    obtain ⟨d, hd, rfl⟩ := Option.map_eq_some_iff.mp hstep
    exact h.device (DeviceManager.step_counts hd)
  | refreshed context registration =>
    obtain ⟨⟨started, later⟩, hschedule, rfl⟩ := Option.map_eq_some_iff.mp hstep
    exact h.schedule hschedule
  | result token live shouldRetry =>
    rw [MainWindow.step] at hstep
    split_ifs at hstep
    cases hstep
    rw [updateResult]
    split_ifs with hcurrent
    · simp only [callbackIsCurrent, Bool.and_eq_true] at hcurrent
      exact h.retryAttempt hcurrent.1.2
    · exact h
  | error token live =>
    rw [MainWindow.step] at hstep
    split_ifs at hstep
    cases hstep
    rw [updateError]
    split_ifs with hcurrent
    · simp only [callbackIsCurrent, Bool.and_eq_true] at hcurrent
      exact h.retryAttempt hcurrent.2
    · exact h
  | finished token =>
    rw [MainWindow.step] at hstep
    split_ifs at hstep with hmem
    cases hstep
    obtain ⟨other, hworkers⟩ : ∃ other, s.workers = [other] := by
      obtain hnil | hone := Nat.le_one_iff_eq_zero_or_eq_one.mp h.single
      · rw [List.eq_nil_of_length_eq_zero hnil] at hmem
        cases hmem
      · exact List.length_eq_one_iff.mp hone
    have hempty : s.workers.erase token = [] := by
      rw [hworkers, List.mem_singleton] at hmem
      rw [hworkers, hmem, List.erase_cons_head]
    refine Sound.finished ?_ hempty token
    refine ⟨?_, ?_, h.pending, h.current, h.past, h.budget, h.three⟩
    · exact (List.length_eq_zero_iff.mpr hempty).trans_le (Nat.zero_le 1)
    · exact fun other hother => h.held other (List.mem_of_mem_erase hother)
  | timer index registration =>
    rw [MainWindow.step] at hstep
    cases hcallback : s.timers[index]? with
    | none =>
      rw [hcallback] at hstep
      cases hstep
    | some callback =>
      rw [hcallback] at hstep
      refine Sound.fire ?_ hstep
      exact ⟨h.single, h.held, h.pending, h.current, h.past, h.budget, h.three⟩
  | close =>
    cases hstep
    exact h.close

theorem Covered.fireRetry (h : Covered s) {index : Nat} {key : Key} {registration : Registration τ π}
    (hat : s.timers[index]? = some (.retry context key))
    (hrun : retry u { s with timers := s.timers.eraseIdx index } context key registration = some t) : Covered t := by
  obtain ⟨rfl, -⟩ | rfl | ⟨started, later, hschedule, ⟨hstarted, rfl⟩ | rfl⟩ := retry_cases hrun
  · intro hopen hbusy
    obtain htoken | hretry | hrelease | ⟨next, hresume⟩ := h hopen hbusy
    · exact .inl htoken
    · exact .inr (.inl hretry)
    · exact .inr (.inr (.inl (mem_erased hat hrelease (fun heq => by cases heq))))
    · exact .inr (.inr (.inr ⟨next, mem_erased hat hresume (fun heq => by cases heq)⟩))
  · exact fun _ _ => singleShot_owes _
  · obtain ⟨-, hnot, -⟩ | howes := schedule_owes hschedule
    · rw [hnot] at hstarted
      cases hstarted
    · exact fun _ _ => howes
  · exact fun _ _ => singleShot_owes _

theorem Covered.step (h : Covered s) (hsound : Sound s) {e : Event τ π} (hresumes : s.Resumes u e)
    (hstep : MainWindow.step u s e = some t) : Covered t := by
  cases e with
  | device action =>
    obtain ⟨d, -, rfl⟩ := Option.map_eq_some_iff.mp hstep
    exact h
  | refreshed context registration =>
    obtain ⟨⟨started, later⟩, hschedule, rfl⟩ := Option.map_eq_some_iff.mp hstep
    obtain ⟨rfl, -⟩ | howes := schedule_owes hschedule
    · exact h
    · exact fun _ _ => howes
  | result token live shouldRetry =>
    rw [MainWindow.step] at hstep
    split_ifs at hstep
    cases hstep
    rw [updateResult]
    split_ifs with hcurrent
    · rw [Bool.and_eq_true] at hcurrent
      exact h.retryAttempt _ (open_of_current hcurrent.1)
    · exact h
  | error token live =>
    rw [MainWindow.step] at hstep
    split_ifs at hstep
    cases hstep
    rw [updateError]
    split_ifs with hcurrent
    · exact h.retryAttempt _ (open_of_current hcurrent)
    · exact h
  | finished token =>
    rw [MainWindow.step] at hstep
    split_ifs at hstep with hmem
    cases hstep
    obtain ⟨hother, -⟩ | ⟨-, added, heq, howes⟩ :=
      finished_cases (u := u) { s with workers := s.workers.erase token } token
    · exact absurd (hsound.held token hmem) hother
    · rw [heq]
      intro hopen _
      obtain hclosing | hretry | hrelease | ⟨next, hresume⟩ := howes
      · exact absurd (hclosing.symm.trans hopen) (by decide)
      · exact .inr (.inl hretry)
      · exact .inr (.inr (.inl (List.mem_append_right _ hrelease)))
      · exact .inr (.inr (.inr ⟨next, List.mem_append_right _ hresume⟩))
  | timer index registration =>
    rw [MainWindow.step] at hstep
    rw [Resumes] at hresumes
    cases hat : s.timers[index]? with
    | none =>
      rw [hat] at hstep
      cases hstep
    | some callback =>
      rw [hat] at hstep hresumes
      have hrest : Sound { s with timers := s.timers.eraseIdx index } :=
        ⟨hsound.single, hsound.held, hsound.pending, hsound.current, hsound.past, hsound.budget, hsound.three⟩
      cases callback with
      | release =>
        cases hstep
        exact Covered.fireRelease hrest
      | retry context key => exact h.fireRetry hat hstep
      | resume context =>
        obtain ⟨⟨started, later⟩, hschedule, rfl⟩ := Option.map_eq_some_iff.mp hstep
        obtain ⟨rfl, -, hidle⟩ | howes := schedule_owes hschedule
        · intro hopen hbusy
          obtain ⟨hcurrent, hlast⟩ | hothers := hresumes
          · exact absurd ((hidle hcurrent hlast).symm.trans hopen) (by decide)
          · exact hothers hbusy
        · exact fun _ _ => howes
  | close =>
    cases hstep
    exact fun hopen => (by cases hopen)

theorem Sound.exec (d : DeviceManager τ π) {events : List (Event τ π)}
    (hrun : exec (MainWindow.step u) (new d) events = some s) : Sound s :=
  exec_keeps Sound (fun _ _ _ h hstep => h.step hstep) (sound_new d) hrun

/-- One worker at a time, none for a device that was gone, three for each generation of a device; and a window at
rest has its barrier off, when no resumed update was the last one to wait for. -/
theorem update_scheduler_bounded (d : DeviceManager τ π) {events : List (Event τ π)}
    (hrun : OpenAdb.Lib.Runs.exec (MainWindow.step u) (new d) events = some s) :
    s.workers.length ≤ 1 ∧ (∀ start ∈ s.starts, start.current = true) ∧
      (∀ key, (s.starts.filter (fun start => start.key = key)).length ≤ 3) ∧
      (Along (MainWindow.step u) (Resumes u) (new d) events → s.closing = false → s.idle = true →
        s.busyCalls.head? ≠ some true) := by
  have hsound := Sound.exec d hrun
  refine ⟨hsound.single, hsound.current, hsound.three, fun hresumes hopen hidle hbusy => ?_⟩
  have hcovered : Sound s ∧ Covered s := by
    refine exec_along (fun s => Sound s ∧ Covered s) (fun s e t h hresume hstep => ?_) ?_ hresumes hrun
    · exact ⟨h.1.step hstep, h.2.step h.1 hresume hstep⟩
    · exact ⟨sound_new d, fun _ hbusy => by cases hbusy⟩
  simp only [idle, Bool.and_eq_true, Option.isNone_iff_eq_none, List.isEmpty_iff] at hidle
  obtain ⟨⟨⟨htoken, hretry⟩, -⟩, htimers⟩ := hidle
  obtain howed | howed | howed | ⟨context, howed⟩ := hcovered.2 hopen hbusy
  · exact howed htoken
  · exact howed hretry
  · rw [htimers] at howed
    cases howed
  · rw [htimers] at howed
    cases howed

end MainWindow

open MainWindow OpenAdb.Context.Device.DeviceManager

def phone (serial : Text) : OpenAdb.Context.Device.DeviceInfo :=
  { serial := serial, mode := OpenAdb.Context.Device.adbMode, transportId := ['1'] }

/-- A phone is connected and its profile is active. -/
def connected : DeviceManager Nat Unit :=
  { DeviceManager.init .ascii true ['a'] ['P'] ⟨(), (), (), ()⟩ with active := phone ['a'] }

def contextOf (serial : Text) (generation : Nat) : DeviceContext Unit where
  serial := serial
  mode := OpenAdb.Context.Device.adbMode
  transportId := ['1']
  profileKey := serial
  profileKind := ['P']
  paths := ⟨(), (), (), ()⟩
  generation := generation

def firstUpdate : List (Event Nat Unit) :=
  [.refreshed (contextOf ['a'] 0) (.registered [] .started)]

def releasedUpdate : List (Event Nat Unit) :=
  firstUpdate ++ [.finished ⟨0, contextOf ['a'] 0⟩, .timer 0 .runtimeError]

theorem first_update_released : ∃ s : MainWindow Nat Unit,
    OpenAdb.Lib.Runs.exec (MainWindow.step .ascii) (new connected) releasedUpdate = some s ∧
      s.busyCalls.head? ≠ some true := by
  have hruns : ∃ s, OpenAdb.Lib.Runs.exec (MainWindow.step .ascii) (new connected) releasedUpdate = some s ∧
      s.closing = false ∧ s.idle = true := ⟨_, rfl, rfl, rfl⟩
  have hresumes : Along (MainWindow.step .ascii) (Resumes .ascii) (new connected) releasedUpdate :=
    ⟨trivial, trivial, trivial, trivial⟩
  obtain ⟨s, hrun, hopen, hidle⟩ := hruns
  exact ⟨s, hrun, (update_scheduler_bounded connected hrun).2.2.2 hresumes hopen hidle⟩

/-- Another phone is connected, its update waits for the first one, and it is gone when it is resumed. -/
def lostResume : List (Event Nat Unit) :=
  firstUpdate ++
    [.refresh 0, .lists 0 [phone ['b']] [], .selects 0, .captures 0 ⟨(), (), (), ()⟩, .details 0 (phone ['b']),
      .commits 0, .notifyProfileChanged ['b'] ['P'] ⟨(), (), (), ()⟩].map Event.device ++
    [.refreshed (contextOf ['b'] 2) .operationConflict, .finished ⟨0, contextOf ['a'] 0⟩] ++
    [.refresh 0, .lists 0 [] [], .selects 0, .commits 0].map Event.device ++ [.timer 0 .operationConflict]

theorem lost_resume_keeps_barrier : ∃ s : MainWindow Nat Unit,
    OpenAdb.Lib.Runs.exec (MainWindow.step .ascii) (new connected) lostResume = some s ∧ s.closing = false ∧
      s.idle = true ∧ s.busyCalls.head? = some true :=
  ⟨_, rfl, rfl, rfl, rfl⟩

end OpenAdb.Acbridge.UpdateScheduler
