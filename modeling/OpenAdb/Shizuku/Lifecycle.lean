import OpenAdb.Shizuku.Cancellation

namespace OpenAdb.Shizuku.Lifecycle

open OpenAdb.Lib.PyText OpenAdb.Lib.Runs OpenAdb.Shizuku.Cancellation

variable {C : Type} [DecidableEq C]

/-- An execution thread of the activity; it makes the call of its own name. -/
inductive Execution
  | absent | running | calling | ended
  deriving DecidableEq

/-- What the main thread is in the middle of. -/
inductive Main
  | looper | connecting | disconnecting
  deriving DecidableEq

/-- The method that has set `terminal`. -/
inductive Winner
  | hostCancellation | status | execution | interruption
  deriving DecidableEq

/-- Where that method stands; `stopping` has what `cancel` found in
`activeProcesses`. -/
inductive Stage (C : Type)
  | reading | cancelling
  | stopping (process : Option C)
  | looking | writing | cleaning | over
  deriving DecidableEq

structure Activity (C : Type) where
  main : Main
  operationStarted : Bool
  userServiceBound : Bool
  commandService : Bool
  completion : Option (Winner × Stage C)
  published : Bool
  execution : C → Execution

def Activity.terminal (activity : Activity C) : Bool := activity.completion.isSome

/-- `terminal.compareAndSet(false, true)` with the method that tries it. -/
def Activity.complete (activity : Activity C) (winner : Winner) (stage : Stage C) : Activity C :=
  if activity.terminal then activity else { activity with completion := some (winner, stage) }

def Activity.setExecution (activity : Activity C) (c : C) (execution : Execution) : Activity C :=
  { activity with execution := Function.update activity.execution c execution }

/-- `completeHostCancellation` has run, or `completeStatus` has published a failure. -/
def Activity.abandoned (activity : Activity C) : Bool :=
  activity.published || decide (activity.completion = some (.hostCancellation, .over))

/-- The activity, the service and what became of the processes; a process is
named by the call that starts it. -/
structure System (C : Type) where
  activity : Activity C
  service : Service C C
  removed : Bool
  snapshot : Option (List C)
  exited : C → Bool
  asked : C → Bool

def System.new : System C where
  activity := ⟨.looper, false, false, false, none, false, fun _ => .absent⟩
  service := Service.new
  removed := false
  snapshot := none
  exited := fun _ => false
  asked := fun _ => false

/-- The callbacks of the activity, the steps of the method that completes it,
the execution threads, and the service. -/
inductive Action (C : Type)
  | available (bound : Bool)
  | connected
  | threadStart (c : C)
  | disconnected
  | status
  | hostCancellation
  | onDestroy
  | read
  | cancel
  | stopProcess
  | look (marker : Bool)
  | publish
  | cleanup
  | fetch (c : C)
  | answer (c : C) (lost : Bool)
  | call (c : C) (a : CallAction C)
  | exits (c : C)
  | destroy
  | terminate
  | exit

def System.ask (s : System C) (c : C) : System C :=
  { s with asked := Function.update s.asked c true }

def System.proceed (s : System C) (winner : Winner) (stage : Stage C) : System C :=
  { s with activity := { s.activity with completion := some (winner, stage) } }

/-- `unbindUserService` with remove, once. -/
def System.cleanupUserService (s : System C) : System C :=
  if s.activity.userServiceBound then
    { s with
      activity := { s.activity with userServiceBound := false, commandService := false }
      removed := true }
  else s

/-- `activeProcesses.get`. -/
def processOf (requestId : Text) (s : Service C C) : Option C :=
  (s.activeProcesses.find? (fun entry => entry.1 = requestId)).map Prod.snd

/-- The execution thread makes the call, which names its process; `exitValue`
answers when the process has exited. -/
def System.allows (s : System C) (c : C) : CallAction C → Bool
  | .execute => s.activity.execution c = .calling
  | .start (some process) => process = c
  | .poll _ (some _) _ => s.exited c
  | _ => true

/-- The step calls `terminateProcess`, whatever comes of it. -/
def asks (call : Call C) : CallAction C → Bool
  | .stop _ _ => call.cancelled || call.timedOut
  | .clean _ | .escape =>
    call.point = .cleaning && call.process.isSome && call.exitCode < 0 && !call.terminationFailed
  | _ => false

def System.answered (s : System C) (c : C) (winner : Winner) (stage : Stage C) : System C :=
  { s with activity := (s.activity.setExecution c .ended).complete winner stage }

def step (requestId : Text) (s : System C) : Action C → Option (System C)
  | .available bound =>
    if s.activity.main = .looper then
      if s.activity.operationStarted || s.activity.terminal then some s
      else
        let activity := { s.activity with operationStarted := true, userServiceBound := bound }
        some { s with activity := if bound then activity else activity.complete .status .looking }
    else none
  | .connected =>
    if s.activity.main = .looper && s.activity.operationStarted then
      if s.activity.terminal then some s
      else some { s with activity := { s.activity with main := .connecting, commandService := true } }
    else none
  | .threadStart c =>
    if s.activity.main = .connecting && s.activity.execution c = .absent then
      some { s with activity := { s.activity.setExecution c .running with main := .looper } }
    else none
  | .disconnected =>
    if s.activity.main = .looper && s.activity.operationStarted then
      some { s with activity := { s.activity with main := .disconnecting, commandService := false } }
    else none
  | .status =>
    some { s with activity := { s.activity with main := .looper }.complete .status .looking }
  | .hostCancellation =>
    if s.activity.main = .looper then
      some { s with activity := s.activity.complete .hostCancellation .reading }
    else none
  | .onDestroy =>
    if s.activity.main = .looper then
      if s.activity.terminal then some s.cleanupUserService
      else some { s with activity := s.activity.complete .interruption .reading }
    else none
  | .read => match s.activity.completion with
    | some (winner, .reading) =>
      some (s.proceed winner (if s.activity.commandService then .cancelling else .cleaning))
    | _ => none
  | .cancel => match s.activity.completion with
    | some (winner, .cancelling) =>
      if s.service.exited then some (s.proceed winner .cleaning)
      else (Cancellation.step (fun _ => requestId) s.service (.cancel requestId)).map fun service =>
        { s.proceed winner (.stopping (if requestId ∈ s.service.runningRequests then
            processOf requestId s.service else none)) with service := service }
    | _ => none
  | .stopProcess => match s.activity.completion with
    | some (winner, .stopping process) =>
      if s.service.exited then some (s.proceed winner .cleaning)
      else some ((process.elim s s.ask).proceed winner .cleaning)
    | _ => none
  | .look marker => match s.activity.completion with
    | some (winner, .looking) => some (s.proceed winner (if marker then .cleaning else .writing))
    | _ => none
  | .publish => match s.activity.completion with
    | some (winner, .writing) =>
      some { s.proceed winner .cleaning with
        activity := { (s.proceed winner .cleaning).activity with published := true } }
    | _ => none
  | .cleanup => match s.activity.completion with
    | some (winner, .cleaning) => some (s.cleanupUserService.proceed winner .over)
    | _ => none
  | .fetch c =>
    if s.activity.execution c = .running then
      if s.activity.commandService then
        some { s with activity := s.activity.setExecution c .calling }
      else some (s.answered c .status .looking)
    else none
  | .answer c lost =>
    if s.activity.execution c = .calling then
      if lost then if s.service.exited then some (s.answered c .status .looking) else none
      else match (s.service.calls c).point with
        | .returned true => some (s.answered c .execution .cleaning)
        | .returned false | .thrown | .rejected => some (s.answered c .status .looking)
        | _ => none
    else none
  | .call c a =>
    if s.allows c a then
      (Cancellation.step (fun _ => requestId) s.service (.call c a)).map fun service =>
        { (if asks (s.service.calls c) a then s.ask c else s) with service := service }
    else none
  | .exits c =>
    if (s.service.calls c).process.isSome then
      some { s with exited := Function.update s.exited c true }
    else none
  | .destroy =>
    if s.removed && s.snapshot.isNone then
      (Cancellation.step (fun _ => requestId) s.service .destroy).map fun service =>
        { s with
          service := service
          snapshot := some (s.service.activeProcesses.map Prod.snd) }
    else none
  | .terminate => match s.snapshot with
    | some (process :: rest) =>
      if s.service.exited then none else some { s.ask process with snapshot := some rest }
    | _ => none
  | .exit =>
    if s.snapshot = some [] then
      (Cancellation.step (fun _ => requestId) s.service .exit).map fun service =>
        { s with service := service }
    else none

/-- An execution thread will find the service. -/
def Finds (s : System C) : Prop :=
  s.activity.commandService = true ∧
    (s.activity.main = .connecting ∨ ∃ c, s.activity.execution c = .running)

/-- What a step does to the service, to the processes and to the copy that
`destroy` has made of `activeProcesses`. -/
inductive Effect (requestId : Text) (s t : System C) (action : Action C) : Prop
  | outside (hservice : t.service = s.service) (hsnapshot : t.snapshot = s.snapshot)
      (hexited : ∀ c, s.exited c = true → t.exited c = true)
      (hasked : ∀ c, s.asked c = true → t.asked c = true)
  | cancelled (h : Cancellation.step (fun _ => requestId) s.service (.cancel requestId) = some t.service)
      (hsnapshot : t.snapshot = s.snapshot) (hexited : t.exited = s.exited) (hasked : t.asked = s.asked)
  | called (c : C) (a : CallAction C) (hallow : s.allows c a = true)
      (h : Cancellation.step (fun _ => requestId) s.service (.call c a) = some t.service)
      (hactivity : t.activity = s.activity)
      (hsnapshot : t.snapshot = s.snapshot) (hexited : t.exited = s.exited)
      (hasked : ∀ c', s.asked c' = true → t.asked c' = true)
      (hasks : asks (s.service.calls c) a = true → t.asked c = true)
  | destroyed (haction : action = .destroy)
      (h : Cancellation.step (fun _ => requestId) s.service .destroy = some t.service)
      (hremoved : s.removed = true)
      (hsnapshot : t.snapshot = some (s.service.activeProcesses.map Prod.snd))
      (hexited : t.exited = s.exited) (hasked : t.asked = s.asked)
  | terminated (process : C) (rest : List C) (hbefore : s.snapshot = some (process :: rest))
      (hsnapshot : t.snapshot = some rest) (hservice : t.service = s.service)
      (hexited : t.exited = s.exited) (hasked : ∀ c, s.asked c = true → t.asked c = true)
      (hprocess : t.asked process = true)
  | left (h : Cancellation.step (fun _ => requestId) s.service .exit = some t.service)
      (hbefore : s.snapshot = some []) (hsnapshot : t.snapshot = some [])
      (hexited : t.exited = s.exited) (hasked : t.asked = s.asked)


variable {requestId : Text} {s t : System C} {action : Action C}

theorem asked_update {p c : C} (h : s.asked c = true) : Function.update s.asked p true c = true := by
  by_cases hc : c = p
  · rw [hc, Function.update_self]
  · rwa [Function.update_of_ne hc]

omit [DecidableEq C] in
theorem cleanupUserService_outside : s.cleanupUserService.service = s.service ∧
    s.cleanupUserService.snapshot = s.snapshot ∧ s.cleanupUserService.exited = s.exited ∧
    s.cleanupUserService.asked = s.asked := by
  unfold System.cleanupUserService
  split <;> exact ⟨rfl, rfl, rfl, rfl⟩

theorem step_effect (h : step requestId s action = some t) : Effect requestId s t action := by
  have houtside : ∀ u : System C, some u = some t → u.service = s.service →
      u.snapshot = s.snapshot → u.exited = s.exited → u.asked = s.asked → Effect requestId s t action := by
    intro u hu hservice hsnapshot hexited hasked
    cases hu
    exact .outside hservice hsnapshot (fun c hc => by rwa [hexited]) (fun c hc => by rwa [hasked])
  obtain ⟨hservice, hsnapshot, hexited, hasked⟩ := cleanupUserService_outside (s := s)
  cases action with
  | cancel =>
    simp only [step] at h
    split at h
    · split at h
      · exact houtside _ h rfl rfl rfl rfl
      · obtain ⟨service, hcancel, rfl⟩ := Option.map_eq_some_iff.mp h
        exact .cancelled hcancel rfl rfl rfl
    · cases h
  | stopProcess =>
    simp only [step] at h
    split at h
    · split at h
      · exact houtside _ h rfl rfl rfl rfl
      · cases h
        rename_i winner process _ _
        cases process with
        | none => exact .outside rfl rfl (fun _ hc => hc) (fun _ hc => hc)
        | some p => exact .outside rfl rfl (fun _ hc => hc) (fun _ hc => asked_update hc)
    · cases h
  | call c a =>
    simp only [step] at h
    split at h
    · rename_i hallow
      obtain ⟨service, hcall, rfl⟩ := Option.map_eq_some_iff.mp h
      by_cases hasks : asks (s.service.calls c) a = true
      · rw [if_pos hasks]
        exact .called c a hallow hcall rfl rfl rfl (fun _ hc => asked_update hc)
          (fun _ => by simp [System.ask])
      · rw [if_neg hasks]
        exact .called c a hallow hcall rfl rfl rfl (fun _ hc => hc) (fun hc => absurd hc hasks)
    · cases h
  | exits c =>
    simp only [step] at h
    split at h <;> cases h
    refine .outside rfl rfl (fun c' hc => ?_) (fun _ hc => hc)
    by_cases hc' : c' = c
    · simp [hc']
    · simpa [Function.update_of_ne hc'] using hc
  | destroy =>
    simp only [step] at h
    split at h
    · rename_i hremoved
      rw [Bool.and_eq_true] at hremoved
      obtain ⟨service, hdestroy, rfl⟩ := Option.map_eq_some_iff.mp h
      exact .destroyed rfl hdestroy hremoved.1 rfl rfl rfl
    · cases h
  | terminate =>
    simp only [step] at h
    split at h
    · rename_i process rest hbefore
      split at h <;> cases h
      exact .terminated process rest hbefore rfl rfl rfl (fun _ hc => asked_update hc)
        (by simp [System.ask])
    · cases h
  | exit =>
    simp only [step] at h
    split at h
    · rename_i hbefore
      obtain ⟨service, hexit, rfl⟩ := Option.map_eq_some_iff.mp h
      exact .left hexit hbefore hbefore rfl rfl
    · cases h
  | onDestroy =>
    simp only [step] at h
    split at h
    · split at h
      · exact houtside _ h hservice hsnapshot hexited hasked
      · exact houtside _ h rfl rfl rfl rfl
    · cases h
  | cleanup =>
    simp only [step] at h
    split at h
    · exact houtside _ h hservice hsnapshot hexited hasked
    · cases h
  | answer c lost =>
    simp only [step] at h
    split_ifs at h
    · exact houtside _ h rfl rfl rfl rfl
    · split at h <;> first | exact houtside _ h rfl rfl rfl rfl | cases h
  | status => exact houtside _ h rfl rfl rfl rfl
  | _ =>
    simp only [step] at h
    split at h
    · first
        | exact houtside _ h rfl rfl rfl rfl
        | (split at h <;> exact houtside _ h rfl rfl rfl rfl)
    · cases h

/-- The activity has given the service up, and no thread will find it. -/
structure Activity.Ok (activity : Activity C) (removed : Bool) : Prop where
  bound : activity.commandService = true →
    activity.operationStarted = true ∧ activity.userServiceBound = true
  open' : activity.operationStarted = true → activity.terminal = false →
    activity.userServiceBound = true
  removed : removed = true → activity.terminal = true ∧ activity.commandService = false
  published : activity.published = true → activity.terminal = true

omit [DecidableEq C] in
@[simp]
theorem complete_terminal (activity : Activity C) (winner : Winner) (stage : Stage C) :
    (activity.complete winner stage).terminal = true := by
  unfold Activity.complete
  split
  · assumption
  · rfl

omit [DecidableEq C] in
/-- Completing the activity leaves everything but the completion as it is. -/
theorem complete_fields (activity : Activity C) (winner : Winner) (stage : Stage C) :
    (activity.complete winner stage).main = activity.main ∧
    (activity.complete winner stage).operationStarted = activity.operationStarted ∧
    (activity.complete winner stage).commandService = activity.commandService ∧
    (activity.complete winner stage).userServiceBound = activity.userServiceBound ∧
    (activity.complete winner stage).published = activity.published ∧
    (activity.complete winner stage).execution = activity.execution := by
  unfold Activity.complete
  split <;> exact ⟨rfl, rfl, rfl, rfl, rfl, rfl⟩

omit [DecidableEq C] in
theorem Activity.Ok.complete {activity : Activity C} {removed : Bool}
    (hbound : activity.commandService = true →
      activity.operationStarted = true ∧ activity.userServiceBound = true)
    (hremoved : removed = true → activity.commandService = false) (winner : Winner) (stage : Stage C) :
    (activity.complete winner stage).Ok removed := by
  obtain ⟨-, hstarted, hcommand, hservice, -, -⟩ := complete_fields activity winner stage
  refine ⟨?_, ?_, ?_, ?_⟩
  · rwa [hcommand, hstarted, hservice]
  · simp
  · rw [hcommand]
    exact fun h => ⟨complete_terminal _ _ _, hremoved h⟩
  · simp

omit [DecidableEq C] in
theorem cleanup_fields (hok : s.activity.Ok s.removed) :
    s.cleanupUserService.activity.commandService = false ∧
    s.cleanupUserService.activity.completion = s.activity.completion ∧
    s.cleanupUserService.activity.execution = s.activity.execution ∧
    s.cleanupUserService.activity.published = s.activity.published ∧
    s.cleanupUserService.service = s.service := by
  unfold System.cleanupUserService
  split
  · exact ⟨rfl, rfl, rfl, rfl, rfl⟩
  · rename_i hunbound
    exact ⟨Bool.eq_false_iff.mpr fun h => hunbound (hok.bound h).2, rfl, rfl, rfl, rfl⟩

omit [DecidableEq C] in
theorem cleanup_ok (hok : s.activity.Ok s.removed) (hterminal : s.activity.terminal = true) :
    s.cleanupUserService.activity.Ok s.cleanupUserService.removed := by
  obtain ⟨hcommand, hcompletion, -, -, -⟩ := cleanup_fields hok
  have hkeep : s.cleanupUserService.activity.terminal = true := by
    unfold Activity.terminal
    rwa [hcompletion]
  exact ⟨by simp [hcommand], by simp [hkeep], fun _ => ⟨hkeep, hcommand⟩, fun _ => hkeep⟩

omit [DecidableEq C] in
theorem proceed_ok {winner : Winner} {stage stage' : Stage C} (hok : s.activity.Ok s.removed)
    (h : s.activity.completion = some (winner, stage)) :
    (s.proceed winner stage').activity.Ok (s.proceed winner stage').removed := by
  have hterminal : s.activity.terminal = true := by simp [Activity.terminal, h]
  exact ⟨hok.bound, by simp [System.proceed, Activity.terminal],
      fun hr => ⟨rfl, (hok.removed hr).2⟩, fun _ => rfl⟩

theorem ok_next (hok : s.activity.Ok s.removed) (h : step requestId s action = some t) :
    t.activity.Ok t.removed := by
  have hcomplete : ∀ winner stage, (s.activity.complete winner stage).Ok s.removed :=
    fun winner stage => .complete hok.bound (fun hr => (hok.removed hr).2) winner stage
  have hanswered : ∀ c winner stage, (s.answered c winner stage).activity.Ok s.removed := by
    intro c winner stage
    refine Activity.Ok.complete ?_ ?_ winner stage
    · exact hok.bound
    · exact fun hr => (hok.removed hr).2
  cases action with
  | available bound =>
    simp only [step] at h
    split at h
    case isFalse => cases h
    by_cases hdone : (s.activity.operationStarted || s.activity.terminal) = true
    · rw [if_pos hdone] at h
      cases h
      exact hok
    · rw [if_neg hdone] at h
      cases h
      simp only [Bool.or_eq_true, not_or, Bool.not_eq_true] at hdone
      have hcommand : s.activity.commandService = false :=
        Bool.eq_false_iff.mpr fun hc => by simp [(hok.bound hc).1] at hdone
      have hremoved : s.removed = false :=
        Bool.eq_false_iff.mpr fun hr => by simp [(hok.removed hr).1] at hdone
      cases bound with
      | true =>
        exact ⟨by simp [hcommand], fun _ _ => rfl, by simp [hremoved], hok.published⟩
      | false =>
        refine Activity.Ok.complete ?_ ?_ _ _
        · simp [hcommand]
        · exact fun _ => hcommand
  | connected =>
    simp only [step] at h
    split_ifs at h with hmain hterminal <;> cases h
    · exact hok
    · rw [Bool.and_eq_true] at hmain
      rw [Bool.not_eq_true] at hterminal
      have hremoved : s.removed = false :=
        Bool.eq_false_iff.mpr fun hr => by simp [(hok.removed hr).1] at hterminal
      exact ⟨fun _ => ⟨hmain.2, hok.open' hmain.2 hterminal⟩, hok.open', by simp [hremoved], hok.published⟩
  | threadStart c =>
    simp only [step] at h
    split_ifs at h
    cases h
    exact ⟨hok.bound, hok.open', hok.removed, hok.published⟩
  | disconnected =>
    simp only [step] at h
    split_ifs at h
    cases h
    exact ⟨by simp, hok.open', fun hr => ⟨(hok.removed hr).1, rfl⟩, hok.published⟩
  | status =>
    cases h
    refine Activity.Ok.complete ?_ ?_ _ _
    · exact hok.bound
    · exact fun hr => (hok.removed hr).2
  | hostCancellation =>
    simp only [step] at h
    split_ifs at h
    cases h
    exact hcomplete _ _
  | onDestroy =>
    simp only [step] at h
    split_ifs at h with hmain hterminal <;> cases h
    · exact cleanup_ok hok hterminal
    · exact hcomplete _ _
  | read | look marker =>
    simp only [step] at h
    split at h
    · rename_i hcompletion
      cases h
      exact proceed_ok hok hcompletion
    · cases h
  | publish =>
    simp only [step] at h
    split at h
    · rename_i winner hcompletion
      cases h
      have hok' : (s.proceed winner .cleaning).activity.Ok s.removed := proceed_ok hok hcompletion
      obtain ⟨hbound, hopen, hremoved, -⟩ := hok'
      exact ⟨hbound, hopen, hremoved, fun _ => rfl⟩
    · cases h
  | cleanup => 
    simp only [step] at h
    split at h
    · rename_i winner hcompletion
      cases h
      have hok' := cleanup_ok hok (by simp [Activity.terminal, hcompletion])
      exact proceed_ok hok' (by rw [(cleanup_fields hok).2.1, hcompletion])
    · cases h
  | fetch c =>
    simp only [step] at h
    split_ifs at h <;> cases h
    · exact ⟨hok.bound, hok.open', hok.removed, hok.published⟩
    · exact hanswered _ _ _
  | answer c lost =>
    simp only [step] at h
    split_ifs at h
    · cases h
      exact hanswered _ _ _
    · split at h <;> cases h <;> exact hanswered _ _ _
  | cancel =>
    simp only [step] at h
    split at h
    · rename_i hcompletion
      split at h
      · cases h
        exact proceed_ok hok hcompletion
      · obtain ⟨service, -, rfl⟩ := Option.map_eq_some_iff.mp h
        exact proceed_ok hok hcompletion
    · cases h
  | stopProcess =>
    simp only [step] at h
    split at h
    · rename_i winner process hcompletion
      split at h <;> cases h
      · exact proceed_ok hok hcompletion
      · cases process <;> exact proceed_ok hok hcompletion
    · cases h
  | call c a =>
    simp only [step] at h
    split at h
    · obtain ⟨service, -, rfl⟩ := Option.map_eq_some_iff.mp h
      split <;> exact hok
    · cases h
  | exits c =>
    simp only [step] at h
    split at h <;> cases h
    exact hok
  | terminate =>
    simp only [step] at h
    split at h
    · split at h <;> cases h
      exact hok
    · cases h
  | destroy | exit =>
    simp only [step] at h
    split at h
    · obtain ⟨service, -, rfl⟩ := Option.map_eq_some_iff.mp h
      exact hok
    · cases h

/-- What a completed activity does not take up again. -/
structure Calmer (s t : System C) : Prop where
  terminal : t.activity.terminal = true
  command : t.activity.commandService = true → s.activity.commandService = true
  main : t.activity.main = .connecting → s.activity.main = .connecting
  running : ∀ c, t.activity.execution c = .running →
    s.activity.execution c = .running ∨ s.activity.main = .connecting
  calling : ∀ c, t.activity.execution c = .calling → s.activity.execution c = .calling ∨ Finds s

omit [DecidableEq C] in
theorem Calmer.of_same (h : s.activity.terminal = true) (hactivity : t.activity = s.activity) :
    Calmer s t := by
  refine ⟨?_, ?_, ?_, ?_, ?_⟩ <;> rw [hactivity]
  · exact h
  · exact id
  · exact id
  · exact fun _ => .inl
  · exact fun _ => .inl

omit [DecidableEq C] in
theorem Calmer.of_execution (hterminal : t.activity.terminal = true)
    (hmain : t.activity.main = .connecting → s.activity.main = .connecting)
    (hcommand : t.activity.commandService = true → s.activity.commandService = true)
    (hexecution : t.activity.execution = s.activity.execution) : Calmer s t :=
  ⟨hterminal, hcommand, hmain, fun c hc => .inl (by rwa [← hexecution]),
    fun c hc => .inl (by rwa [← hexecution])⟩

theorem calmer_answered {c : C} {winner : Winner} {stage : Stage C} :
    Calmer s (s.answered c winner stage) := by
  obtain ⟨hmain, -, hcommand, -, -, hexecution⟩ :=
    complete_fields (s.activity.setExecution c .ended) winner stage
  have hother : ∀ c' execution, execution ≠ .ended →
      (s.answered c winner stage).activity.execution c' = execution →
      s.activity.execution c' = execution := by
    intro c' execution hne hc
    have heq : (s.activity.setExecution c .ended).execution c' = execution := by
      rw [← hexecution]
      exact hc
    by_cases hc' : c' = c
    · rw [hc'] at heq
      simp [Activity.setExecution] at heq
      exact absurd heq.symm hne
    · simpa [Activity.setExecution, Function.update_of_ne hc'] using heq
  exact ⟨complete_terminal _ _ _, fun h => hcommand.symm.trans h, fun h => hmain.symm.trans h,
    fun c' hc => .inl (hother c' _ (by simp) hc), fun c' hc => .inl (hother c' _ (by simp) hc)⟩

theorem calmer_next (hterminal : s.activity.terminal = true) (h : step requestId s action = some t) :
    Calmer s t := by
  have hcomplete : ∀ winner stage, s.activity.complete winner stage = s.activity :=
    fun winner stage => by rw [Activity.complete, if_pos hterminal]
  have hcleanup : ∀ u, (u = s.cleanupUserService ∨
      ∃ winner stage, u = s.cleanupUserService.proceed winner stage) → Calmer s u := by
    intro u hu
    have hsame : u.activity.terminal = true ∧ u.activity.main = s.activity.main ∧
        (u.activity.commandService = true → s.activity.commandService = true) ∧
        u.activity.execution = s.activity.execution := by
      obtain rfl | ⟨winner, stage, rfl⟩ := hu <;> unfold System.cleanupUserService <;> split <;>
        simp_all [System.proceed, Activity.terminal]
    exact .of_execution hsame.1 (fun hm => by rwa [← hsame.2.1]) hsame.2.2.1 hsame.2.2.2
  cases action with
  | available bound =>
    simp only [step, hterminal, Bool.or_true, if_true] at h
    split_ifs at h
    cases h
    exact .of_same hterminal rfl
  | connected =>
    simp only [step, hterminal, if_true] at h
    split_ifs at h
    cases h
    exact .of_same hterminal rfl
  | threadStart c =>
    simp only [step] at h
    split_ifs at h with hmain
    cases h
    rw [Bool.and_eq_true, decide_eq_true_eq] at hmain
    refine ⟨hterminal, id, by simp, fun _ _ => .inr hmain.1, ?_⟩
    intro c' hc
    by_cases hc' : c' = c
    · simp [hc', Activity.setExecution] at hc
    · exact .inl (by simpa [Activity.setExecution, Function.update_of_ne hc'] using hc)
  | disconnected =>
    simp only [step] at h
    split_ifs at h
    cases h
    exact .of_execution hterminal (by simp) (by simp) rfl
  | status =>
    cases h
    rw [Activity.complete, if_pos (by exact hterminal)]
    exact .of_execution hterminal (by simp) id rfl
  | hostCancellation =>
    simp only [step] at h
    split_ifs at h
    cases h
    exact .of_same hterminal (hcomplete _ _)
  | onDestroy =>
    simp only [step, hterminal, if_true] at h
    split_ifs at h
    cases h
    exact hcleanup _ (.inl rfl)
  | fetch c =>
    simp only [step] at h
    split_ifs at h with hrunning hcommand <;> cases h
    · refine ⟨hterminal, id, id, ?_, ?_⟩
      · intro c' hc
        by_cases hc' : c' = c
        · simp [hc', Activity.setExecution] at hc
        · exact .inl (by simpa [Activity.setExecution, Function.update_of_ne hc'] using hc)
      · intro c' hc
        by_cases hc' : c' = c
        · exact .inr ⟨hcommand, .inr ⟨c, hrunning⟩⟩
        · exact .inl (by simpa [Activity.setExecution, Function.update_of_ne hc'] using hc)
    · exact calmer_answered
  | answer c lost =>
    simp only [step] at h
    split_ifs at h
    · cases h
      exact calmer_answered
    · split at h <;> cases h <;> exact calmer_answered
  | cleanup =>
    simp only [step] at h
    split at h <;> cases h
    exact hcleanup _ (.inr ⟨_, _, rfl⟩)
  | read | look marker | publish =>
    simp only [step] at h
    split at h <;> cases h
    exact .of_execution rfl id id rfl
  | cancel =>
    simp only [step] at h
    split at h
    · split at h
      · cases h
        exact .of_execution rfl id id rfl
      · obtain ⟨service, -, rfl⟩ := Option.map_eq_some_iff.mp h
        exact .of_execution rfl id id rfl
    · cases h
  | stopProcess =>
    simp only [step] at h
    split at h
    · rename_i winner process hcompletion
      split at h <;> cases h
      · exact .of_execution rfl id id rfl
      · cases process <;> exact .of_execution rfl id id rfl
    · cases h
  | call c a =>
    simp only [step] at h
    split at h
    · obtain ⟨service, -, rfl⟩ := Option.map_eq_some_iff.mp h
      split <;> exact .of_same hterminal rfl
    · cases h
  | exits c =>
    simp only [step] at h
    split at h <;> cases h
    exact .of_same hterminal rfl
  | terminate =>
    simp only [step] at h
    split at h
    · split at h <;> cases h
      exact .of_same hterminal rfl
    · cases h
  | destroy | exit =>
    simp only [step] at h
    split at h
    · obtain ⟨service, -, rfl⟩ := Option.map_eq_some_iff.mp h
      exact .of_same hterminal rfl
    · cases h

omit [DecidableEq C] in
theorem complete_over {activity : Activity C} {winner : Winner} {stage : Stage C} (hstage : stage ≠ .over)
    (h : (activity.complete winner stage).completion = some (.hostCancellation, .over)) :
    activity.completion = some (.hostCancellation, .over) := by
  unfold Activity.complete at h
  split at h
  · exact h
  · simp only [Option.some.injEq, Prod.mk.injEq] at h
    exact absurd h.2 hstage

/-- The two ways to abandon the request. -/
theorem abandoned_next (h : step requestId s action = some t) (ht : t.activity.abandoned = true) :
    s.activity.abandoned = true ∨ action = .publish ∨
      action = .cleanup ∧ s.activity.completion = some (.hostCancellation, .cleaning) := by
  have hsame : t.activity.published = s.activity.published →
      (t.activity.completion = some (.hostCancellation, .over) →
        s.activity.completion = some (.hostCancellation, .over)) → s.activity.abandoned = true := by
    intro hpublished hcompletion
    unfold Activity.abandoned at ht ⊢
    rw [Bool.or_eq_true, decide_eq_true_eq] at ht ⊢
    exact ht.imp (fun h => by rwa [← hpublished]) hcompletion
  have hcomplete : ∀ (activity : Activity C) winner stage, stage ≠ .over →
      t.activity = activity.complete winner stage → activity.published = s.activity.published →
      activity.completion = s.activity.completion → s.activity.abandoned = true := by
    intro activity winner stage hstage hactivity hpublished hcompletion
    obtain ⟨-, -, -, -, hkeep, -⟩ := complete_fields activity winner stage
    refine hsame (by rw [hactivity, hkeep, hpublished]) ?_
    rw [hactivity, ← hcompletion]
    exact complete_over hstage
  cases action with
  | available bound =>
    left
    simp only [step] at h
    split at h
    case isFalse => cases h
    split at h <;> cases h
    · exact ht
    · cases bound with
      | true => exact hsame rfl id
      | false => exact hcomplete _ _ _ (by simp) rfl rfl rfl
  | connected =>
    left
    simp only [step] at h
    split_ifs at h <;> cases h
    · exact ht
    · exact hsame rfl id
  | threadStart c | disconnected =>
    left
    simp only [step] at h
    split_ifs at h
    cases h
    exact hsame rfl id
  | status =>
    cases h
    exact .inl (hcomplete _ _ _ (by simp) rfl rfl rfl)
  | hostCancellation =>
    left
    simp only [step] at h
    split_ifs at h
    cases h
    exact hcomplete _ _ _ (by simp) rfl rfl rfl
  | onDestroy =>
    left
    simp only [step] at h
    split_ifs at h <;> cases h
    · unfold System.cleanupUserService at ht
      split at ht <;> exact ht
    · exact hcomplete _ _ _ (by simp) rfl rfl rfl
  | fetch c =>
    left
    simp only [step] at h
    split_ifs at h <;> cases h
    · exact hsame rfl id
    · exact hcomplete _ _ _ (by simp) rfl rfl rfl
  | answer c lost =>
    left
    simp only [step] at h
    split_ifs at h
    · cases h
      exact hcomplete _ _ _ (by simp) rfl rfl rfl
    · split at h <;> cases h <;> exact hcomplete _ _ _ (by simp) rfl rfl rfl
  | publish => exact .inr (.inl rfl)
  | cleanup =>
    simp only [step] at h
    split at h <;> cases h
    rename_i winner hcompletion
    obtain hpublished | hover := (Bool.or_eq_true _ _).mp ht
    · left
      have hkeep : s.cleanupUserService.activity.published = s.activity.published := by
        unfold System.cleanupUserService
        split <;> rfl
      exact (Bool.or_eq_true _ _).mpr (.inl (hkeep.symm.trans hpublished))
    · simp only [System.proceed, Option.some.injEq, Prod.mk.injEq, decide_eq_true_eq] at hover
      rw [hover.1] at hcompletion
      exact .inr (.inr ⟨rfl, hcompletion⟩)
  | read =>
    left
    simp only [step] at h
    split at h <;> cases h
    refine hsame rfl ?_
    simp only [System.proceed, Option.some.injEq, Prod.mk.injEq]
    split <;> simp
  | look marker =>
    left
    simp only [step] at h
    split at h <;> cases h
    refine hsame rfl ?_
    cases marker <;> simp [System.proceed]
  | cancel =>
    left
    simp only [step] at h
    split at h
    · split at h
      · cases h
        exact hsame rfl (by simp [System.proceed])
      · obtain ⟨service, -, rfl⟩ := Option.map_eq_some_iff.mp h
        exact hsame rfl (by simp [System.proceed])
    · cases h
  | stopProcess =>
    left
    simp only [step] at h
    split at h
    · rename_i winner process hcompletion
      split at h <;> cases h
      · exact hsame rfl (by simp [System.proceed])
      · cases process <;> exact hsame rfl (by simp [System.proceed])
    · cases h
  | call c a =>
    left
    simp only [step] at h
    split at h
    · obtain ⟨service, -, rfl⟩ := Option.map_eq_some_iff.mp h
      split at ht <;> exact ht
    · cases h
  | exits c =>
    left
    simp only [step] at h
    split at h <;> cases h
    exact ht
  | terminate =>
    left
    simp only [step] at h
    split at h
    · split at h <;> cases h
      exact ht
    · cases h
  | destroy | exit =>
    left
    simp only [step] at h
    split at h
    · obtain ⟨service, -, rfl⟩ := Option.map_eq_some_iff.mp h
      exact ht
    · cases h

theorem snapshot_next (h : step requestId s action = some t) (ht : t.snapshot.isSome = true) :
    s.snapshot.isSome = true ∨ action = .destroy := by
  cases step_effect h with
  | outside _ hsnapshot => exact .inl (by rwa [← hsnapshot])
  | cancelled _ hsnapshot => exact .inl (by rwa [← hsnapshot])
  | called _ _ _ _ _ hsnapshot => exact .inl (by rwa [← hsnapshot])
  | destroyed haction => exact .inr haction
  | terminated _ _ hbefore => exact .inl (by rw [hbefore]; rfl)
  | left _ hbefore => exact .inl (by rw [hbefore]; rfl)

end OpenAdb.Shizuku.Lifecycle
