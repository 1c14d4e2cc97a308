import OpenAdb.Files.Requests

namespace OpenAdb.Files.FolderListing

open OpenAdb.Lib.PyText OpenAdb.Lib.Runs
open OpenAdb.Context.Device (DeviceContext DeviceManager adbMode)
open OpenAdb.Files.Requests (normalizeAndroidPath recoveryMode)

variable {τ π : Type}

structure AndroidListingRequest (π : Type) where
  deviceContext : DeviceContext π
  generation : Nat
  requestedPath : Text
  useRoot : Bool

/-- The controller and the device manager that it asks. `begins` counts the calls of
`begin_android_listing` that have taken their generation; it is history. -/
structure Shared (τ π : Type) where
  manager : DeviceManager τ π
  androidPath : Text
  listingGeneration : Nat
  storageGeneration : Nat
  begins : Nat

/-- The generation only grows, and while it is the same the path is the same and no listing has begun. -/
structure Later (s t : Shared τ π) : Prop where
  generation : s.listingGeneration ≤ t.listingGeneration
  folder : t.listingGeneration = s.listingGeneration → t.androidPath = s.androidPath ∧ t.begins = s.begins
  manager : s.manager.Counts t.manager

theorem Later.refl (s : Shared τ π) : Later s s := ⟨le_rfl, fun _ => ⟨rfl, rfl⟩, .refl _⟩

theorem Later.trans {s t r : Shared τ π} (h : Later s t) (h' : Later t r) : Later s r := by
  refine ⟨h.generation.trans h'.generation, ?_, h.manager.trans h'.manager⟩
  intro heq
  have hst : t.listingGeneration = s.listingGeneration :=
    Nat.le_antisymm (h'.generation.trans heq.le) h.generation
  have hfirst := h.folder hst
  have hsecond := h'.folder (heq.trans hst.symm)
  exact ⟨hsecond.1.trans hfirst.1, hsecond.2.trans hfirst.2⟩

theorem later_of_succ {s t : Shared τ π} (h : t.listingGeneration = s.listingGeneration + 1)
    (hmanager : t.manager = s.manager) : Later s t := by
  refine ⟨h ▸ Nat.le_succ _, ?_, hmanager ▸ .refl _⟩
  intro heq
  omega

inductive Change (τ π : Type)
  | device (a : OpenAdb.Context.Device.DeviceManager.Action τ π)
  | setAndroidPath (path : Text)
  | invalidateAndroid
  | beginListing (requested_path : Text)

/-- A call of `begin_android_listing` that has taken its generation. `begun` is history: the state
that its locked section left. -/
structure Begun (τ π : Type) where
  requestedPath : Text
  generation : Nat
  useRoot : Bool
  begun : Shared τ π

/-- A request with the state that its `begin` left and the one in which its context was captured. -/
structure Issued (τ π : Type) where
  request : AndroidListingRequest π
  begun : Shared τ π
  captured : Shared τ π

/-- Where `require_listing_current` is called from. -/
inductive Stage
  | prepare | loadFirst | loadMiddle | loadLast | accept
  deriving DecidableEq

/-- Where a thread is in a call. -/
inductive Call (τ π : Type)
  | idle
  | beginning (requested_path : Text) (useRoot : Bool)
  | capturing (b : Begun τ π)
  | confirming (i : Issued τ π)
  | binding (i : Issued τ π)
  | reconfirming (i : Issued τ π)
  | requiring (stage : Stage) (i : Issued τ π)
  | checking (stage : Stage) (i : Issued τ π) (read : Shared τ π)
  | working (stage : Stage) (i : Issued τ π)

/-- A result that `accept_android_listing` returned, with the states in which it read the
generation and the path, and the device. -/
structure Acceptance (τ π : Type) where
  issued : Issued τ π
  read : Shared τ π
  returned : Shared τ π

structure System (τ π : Type) where
  shared : Shared τ π
  calls : τ → Call τ π
  prepared : List (Issued τ π)
  results : List (Issued τ π)
  accepted : List (Acceptance τ π)

inductive Action (τ π : Type)
  | change (c : Change τ π)
  | begins (thread : τ) (path : Option Text) (useRoot : Bool)
  | takes (thread : τ)
  | captures (thread : τ)
  | confirms (thread : τ)
  | binds (thread : τ) (bound : Bool)
  | reconfirms (thread : τ)
  | loads (thread : τ) (index : Nat)
  | reads (thread : τ)
  | checks (thread : τ)
  | answers (thread : τ) (combined : Option Bool)
  | accepts (thread : τ) (index : Nat)

variable [DecidableEq τ] [DecidableEq π] (u : UnicodeData)

def Shared.init (manager : DeviceManager τ π) (android_path : Text) : Shared τ π where
  manager := manager
  androidPath := normalizeAndroidPath u android_path
  listingGeneration := 0
  storageGeneration := 0
  begins := 0

/-- `set_android_path` -/
def Shared.setAndroidPath (s : Shared τ π) (path : Text) : Shared τ π :=
  if normalizeAndroidPath u path ≠ s.androidPath then
    { s with androidPath := normalizeAndroidPath u path, listingGeneration := s.listingGeneration + 1 }
  else s

def Shared.invalidateAndroid (s : Shared τ π) : Shared τ π :=
  { s with listingGeneration := s.listingGeneration + 1, storageGeneration := s.storageGeneration + 1 }

/-- The locked section of `begin_android_listing`. -/
def Shared.beginListing (s : Shared τ π) (requested_path : Text) : Shared τ π :=
  { s with
    androidPath := requested_path
    listingGeneration := s.listingGeneration + 1
    begins := s.begins + 1 }

def Shared.step (s : Shared τ π) : Change τ π → Option (Shared τ π)
  | .device a => (s.manager.step u a).map (fun manager => { s with manager })
  | .setAndroidPath path => some (s.setAndroidPath u path)
  | .invalidateAndroid => some s.invalidateAndroid
  | .beginListing requested_path => some (s.beginListing requested_path)

/-- `require_context`, with the modes that the controller allows. -/
def requireContext (s : Shared τ π) : Option (DeviceContext π) :=
  match s.manager.captureContext u with
  | .error _ => none
  | .ok context => if context.mode = adbMode ∨ context.mode = recoveryMode then some context else none

/-- The locked comparison of `require_listing_current`. -/
def Shared.matches (s : Shared τ π) (request : AndroidListingRequest π) : Bool :=
  request.generation = s.listingGeneration && normalizeAndroidPath u request.requestedPath = s.androidPath

namespace System

def init (manager : DeviceManager τ π) (android_path : Text) : System τ π where
  shared := .init u manager android_path
  calls _ := .idle
  prepared := []
  results := []
  accepted := []

def setCall (s : System τ π) (thread : τ) (c : Call τ π) : System τ π :=
  { s with calls := Function.update s.calls thread c }

def requireContextCurrent (s : System τ π) (i : Issued τ π) : Bool :=
  s.shared.manager.isContextCurrent u i.request.deviceContext

/-- A call goes on, or raises and is over. -/
def proceed (s : System τ π) (thread : τ) (ok : Bool) (next : Call τ π) : System τ π :=
  s.setCall thread (if ok then next else .idle)

/-- What follows when a check has found the request current. -/
def passed (s : System τ π) (thread : τ) (stage : Stage) (i : Issued τ π) (read : Shared τ π) : System τ π :=
  match stage with
  | .prepare => { s.setCall thread .idle with prepared := s.prepared ++ [i] }
  | .loadFirst => s.setCall thread (.working .loadFirst i)
  | .loadMiddle => s.setCall thread (.working .loadMiddle i)
  | .loadLast => { s.setCall thread .idle with results := s.results ++ [i] }
  | .accept => { s.setCall thread .idle with accepted := s.accepted ++ [⟨i, read, s.shared⟩] }

/-- One locked section, one read of the manager, or one call to the outside, which may raise or find
the call cancelled. -/
def step (s : System τ π) : Action τ π → Option (System τ π)
  | .change (.beginListing _) => none
  | .change c => (s.shared.step u c).map (fun shared => { s with shared })
  | .begins thread path useRoot =>
    match s.calls thread with
    | .idle => some (s.setCall thread (.beginning (normalizeAndroidPath u (path.getD s.shared.androidPath)) useRoot))
    | _ => none
  | .takes thread =>
    match s.calls thread with
    | .beginning requested_path useRoot =>
      let shared := s.shared.beginListing requested_path
      some { s.setCall thread (.capturing ⟨requested_path, shared.listingGeneration, useRoot, shared⟩) with shared }
    | _ => none
  | .captures thread =>
    match s.calls thread with
    | .capturing b =>
      match requireContext u s.shared with
      | none => some (s.setCall thread .idle)
      | some context =>
        some (s.setCall thread (.confirming ⟨⟨context, b.generation, b.requestedPath, b.useRoot⟩, b.begun, s.shared⟩))
    | _ => none
  | .confirms thread =>
    match s.calls thread with
    | .confirming i => some (s.proceed thread (s.requireContextCurrent u i) (.binding i))
    | _ => none
  | .binds thread bound =>
    match s.calls thread with
    | .binding i => some (s.proceed thread bound (.reconfirming i))
    | _ => none
  | .reconfirms thread =>
    match s.calls thread with
    | .reconfirming i => some (s.proceed thread (s.requireContextCurrent u i) (.requiring .prepare i))
    | _ => none
  | .loads thread index =>
    match s.calls thread, s.prepared[index]? with
    | .idle, some i => some (s.setCall thread (.requiring .loadFirst i))
    | _, _ => none
  | .reads thread =>
    match s.calls thread with
    | .requiring stage i => some (s.proceed thread (s.shared.matches u i.request) (.checking stage i s.shared))
    | _ => none
  | .checks thread =>
    match s.calls thread with
    | .checking stage i read =>
      if s.requireContextCurrent u i then some (s.passed thread stage i read) else some (s.setCall thread .idle)
    | _ => none
  | .answers thread combined =>
    match s.calls thread with
    | .working stage i =>
      match combined with
      | none => some (s.setCall thread .idle)
      | some together =>
        some (s.setCall thread (.requiring (if stage = .loadFirst ∧ !together then .loadMiddle else .loadLast) i))
    | _ => none
  | .accepts thread index =>
    match s.calls thread, s.results[index]? with
    | .idle, some i => some (s.setCall thread (.requiring .accept i))
    | _, _ => none

end System

variable {u : UnicodeData}

theorem step_later {s t : Shared τ π} {c : Change τ π} (h : s.step u c = some t) : Later s t := by
  cases c with
  | device a =>
    obtain ⟨manager, hmanager, rfl⟩ := Option.map_eq_some_iff.mp h
    exact ⟨le_rfl, fun _ => ⟨rfl, rfl⟩, DeviceManager.step_counts hmanager⟩
  | setAndroidPath path =>
    cases h
    by_cases hpath : normalizeAndroidPath u path ≠ s.androidPath
    · apply later_of_succ
      · rw [Shared.setAndroidPath, if_pos hpath]
      · rw [Shared.setAndroidPath, if_pos hpath]
    · rw [Shared.setAndroidPath, if_neg hpath]
      exact .refl s
  | invalidateAndroid =>
    cases h
    exact later_of_succ rfl rfl
  | beginListing requested_path =>
    cases h
    exact later_of_succ rfl rfl

theorem later_of_reaches {s t : Shared τ π} (h : Reaches (Shared.step u) s t) : Later s t :=
  h.relation Later.refl (fun _ _ _ => Later.trans) (fun _ _ _ => step_later)

/-- The request of the begin that left this state. -/
structure Asked (i : Issued τ π) : Prop where
  path : i.begun.androidPath = i.request.requestedPath
  generation : i.begun.listingGeneration = i.request.generation
  captured : i.captured.manager.captureContext u = .ok i.request.deviceContext
  reaches : Reaches (Shared.step u) i.begun i.captured

/-- The request is that of the most recent begin, for the path that is shown, and nothing has
changed: from its begin to the read neither the path nor the generation, and from the capture of
its context to the return not the device. What changes between the read and the return is another
matter. -/
structure Current (a : Acceptance τ π) : Prop where
  asked : Asked (u := u) a.issued
  read : Reaches (Shared.step u) a.issued.captured a.read
  returned : Reaches (Shared.step u) a.read a.returned
  folder : ∀ m, Reaches (Shared.step u) a.issued.begun m → Reaches (Shared.step u) m a.read →
    m.androidPath = a.issued.request.requestedPath ∧ m.listingGeneration = a.issued.request.generation ∧
      m.begins = a.issued.begun.begins
  device : ∀ m, Reaches (Shared.step u) a.issued.captured m → Reaches (Shared.step u) m a.returned →
    DeviceManager.Targets u a.issued.request.deviceContext m.manager
  undisturbed : a.returned.listingGeneration = a.read.listingGeneration →
    a.returned.androidPath = a.issued.request.requestedPath ∧ a.returned.begins = a.issued.begun.begins

theorem Asked.folder {i : Issued τ π} {read m : Shared τ π} (h : Asked (u := u) i)
    (hread : read.listingGeneration = i.request.generation) (hm : Reaches (Shared.step u) i.begun m)
    (hmr : Reaches (Shared.step u) m read) :
    m.androidPath = i.request.requestedPath ∧ m.listingGeneration = i.request.generation ∧
      m.begins = i.begun.begins := by
  have hlater := later_of_reaches hm
  have hsame : m.listingGeneration = i.begun.listingGeneration := by
    have hle := hlater.generation
    have hge := (later_of_reaches hmr).generation
    have hbegun := h.generation
    omega
  obtain ⟨hpath, hbegins⟩ := hlater.folder hsame
  exact ⟨hpath.trans h.path, hsame.trans h.generation, hbegins⟩

theorem Asked.device {i : Issued τ π} {returned m : Shared τ π} (h : Asked (u := u) i)
    (hcurrent : returned.manager.isContextCurrent u i.request.deviceContext = true)
    (hm : Reaches (Shared.step u) i.captured m) (hmr : Reaches (Shared.step u) m returned) :
    DeviceManager.Targets u i.request.deviceContext m.manager := by
  have hcounts := (later_of_reaches hm).manager
  have hcounts' := (later_of_reaches hmr).manager
  have hgeneration := (DeviceManager.captureContext_targets h.captured).2.2
  have hreturned := DeviceManager.generation_of_current hcurrent
  apply hcounts.targets h.captured
  apply Nat.le_antisymm
  · rw [← hgeneration, hreturned]
    exact hcounts'.generation
  · exact hcounts.generation

/-- What is known of a call, in a state of the controller. -/
def Known (s : Shared τ π) : Call τ π → Prop
  | .idle | .beginning _ _ => True
  | .capturing b => b.begun.androidPath = b.requestedPath ∧ b.begun.listingGeneration = b.generation ∧
      Reaches (Shared.step u) b.begun s
  | .confirming i | .binding i | .reconfirming i | .requiring _ i | .working _ i =>
    Asked (u := u) i ∧ Reaches (Shared.step u) i.captured s
  | .checking _ i read => Asked (u := u) i ∧ read.listingGeneration = i.request.generation ∧
      Reaches (Shared.step u) i.captured read ∧ Reaches (Shared.step u) read s

structure Inv (s : System τ π) : Prop where
  calls : ∀ thread, Known (u := u) s.shared (s.calls thread)
  prepared : ∀ i ∈ s.prepared, Asked (u := u) i ∧ Reaches (Shared.step u) i.captured s.shared
  results : ∀ i ∈ s.results, Asked (u := u) i ∧ Reaches (Shared.step u) i.captured s.shared
  accepted : ∀ a ∈ s.accepted, Current (u := u) a

theorem Known.later {s t : Shared τ π} (hst : Reaches (Shared.step u) s t) {c : Call τ π} (h : Known (u := u) s c) :
    Known (u := u) t c := by
  cases c with
  | idle => trivial
  | beginning requested_path useRoot => trivial
  | capturing b => exact ⟨h.1, h.2.1, h.2.2.trans hst⟩
  | confirming i => exact ⟨h.1, h.2.trans hst⟩
  | binding i => exact ⟨h.1, h.2.trans hst⟩
  | reconfirming i => exact ⟨h.1, h.2.trans hst⟩
  | requiring stage i => exact ⟨h.1, h.2.trans hst⟩
  | working stage i => exact ⟨h.1, h.2.trans hst⟩
  | checking stage i read => exact ⟨h.1, h.2.1, h.2.2.1, h.2.2.2.trans hst⟩

namespace Inv

variable {s t : System τ π} {thread : τ}

theorem init (manager : DeviceManager τ π) (android_path : Text) : Inv (u := u) (System.init u manager android_path) where
  calls _ := trivial
  prepared i h := by cases h
  results i h := by cases h
  accepted a h := by cases h

theorem moved (h : Inv (u := u) s) {shared : Shared τ π} (hreach : Reaches (Shared.step u) s.shared shared) :
    Inv (u := u) { s with shared } where
  calls thread := (h.calls thread).later hreach
  prepared i hi := ⟨(h.prepared i hi).1, (h.prepared i hi).2.trans hreach⟩
  results i hi := ⟨(h.results i hi).1, (h.results i hi).2.trans hreach⟩
  accepted := h.accepted

theorem setCall (h : Inv (u := u) s) {c : Call τ π} (hc : Known (u := u) s.shared c) :
    Inv (u := u) (s.setCall thread c) where
  calls other := by
    by_cases hother : other = thread
    · subst hother
      have hself : (s.setCall other c).calls other = c := Function.update_self _ _ _
      rw [hself]
      exact hc
    · have hsame : (s.setCall thread c).calls other = s.calls other := Function.update_of_ne hother _ _
      rw [hsame]
      exact h.calls other
  prepared := h.prepared
  results := h.results
  accepted := h.accepted

theorem proceed (h : Inv (u := u) s) {ok : Bool} {next : Call τ π} (hnext : ok = true → Known (u := u) s.shared next) :
    Inv (u := u) (s.proceed thread ok next) := by
  apply h.setCall
  cases ok with
  | true => exact hnext rfl
  | false => trivial

theorem passed (h : Inv (u := u) s) {stage : Stage} {i : Issued τ π} {read : Shared τ π}
    (hcall : Known (u := u) s.shared (.checking stage i read)) (hcurrent : s.requireContextCurrent u i = true) :
    Inv (u := u) (s.passed thread stage i read) := by
  obtain ⟨hasked, hgeneration, hread, hreturned⟩ := hcall
  have hnow : Asked (u := u) i ∧ Reaches (Shared.step u) i.captured s.shared := ⟨hasked, hread.trans hreturned⟩
  have hidle : Inv (u := u) (s.setCall thread .idle) := h.setCall trivial
  cases stage with
  | prepare => exact { hidle with prepared := List.forall_mem_append.mpr ⟨h.prepared, List.forall_mem_singleton.mpr hnow⟩ }
  | loadFirst => exact h.setCall hnow
  | loadMiddle => exact h.setCall hnow
  | loadLast => exact { hidle with results := List.forall_mem_append.mpr ⟨h.results, List.forall_mem_singleton.mpr hnow⟩ }
  | accept =>
    have hfolder := hasked.folder hgeneration (hasked.reaches.trans hread) (.refl read)
    have hgood : Current (u := u) ⟨i, read, s.shared⟩ := by
      refine ⟨hasked, hread, hreturned, fun m hm => hasked.folder hgeneration hm,
        fun m hm => hasked.device hcurrent hm, ?_⟩
      intro hsame
      obtain ⟨hpath, hbegins⟩ := (later_of_reaches hreturned).folder hsame
      exact ⟨hpath.trans hfolder.1, hbegins.trans hfolder.2.2⟩
    exact { hidle with accepted := List.forall_mem_append.mpr ⟨h.accepted, List.forall_mem_singleton.mpr hgood⟩ }

theorem known_captured {b : Begun τ π} (hb : Known (u := u) s.shared (.capturing b))
    {context : DeviceContext π} (hcontext : requireContext u s.shared = some context) :
    Known (u := u) s.shared
      (.confirming ⟨⟨context, b.generation, b.requestedPath, b.useRoot⟩, b.begun, s.shared⟩) := by
  have hcapture : s.shared.manager.captureContext u = .ok context := by
    rw [requireContext] at hcontext
    split at hcontext
    · cases hcontext
    · split_ifs at hcontext
      cases hcontext
      assumption
  exact ⟨⟨hb.1, hb.2.1, hcapture, hb.2.2⟩, .refl _⟩

theorem step (h : Inv (u := u) s) {a : Action τ π} (hstep : s.step u a = some t) : Inv (u := u) t := by
  cases a with
  | change c =>
    cases c with
    | beginListing requested_path => cases hstep
    | device a =>
      obtain ⟨shared, hshared, rfl⟩ := Option.map_eq_some_iff.mp hstep
      exact h.moved (.single hshared)
    | setAndroidPath path =>
      cases hstep
      exact h.moved (.single (a := .setAndroidPath path) rfl)
    | invalidateAndroid =>
      cases hstep
      exact h.moved (.single (a := .invalidateAndroid) rfl)
  | begins thread path useRoot =>
    rw [System.step] at hstep
    split at hstep
    · cases hstep
      exact h.setCall trivial
    · cases hstep
  | takes thread =>
    rw [System.step] at hstep
    split at hstep
    · next requested_path useRoot _ =>
      cases hstep
      have hreach : Reaches (Shared.step u) s.shared (s.shared.beginListing requested_path) :=
        .single (a := .beginListing requested_path) rfl
      exact (h.moved hreach).setCall ⟨rfl, rfl, .refl _⟩
    · cases hstep
  | captures thread =>
    rw [System.step] at hstep
    have hcall := h.calls thread
    split at hstep
    · next b hb =>
      rw [hb] at hcall
      split at hstep
      · cases hstep
        exact h.setCall trivial
      · next context hcontext =>
        cases hstep
        exact h.setCall (known_captured hcall hcontext)
    · cases hstep
  | confirms thread =>
    rw [System.step] at hstep
    have hcall := h.calls thread
    split at hstep
    · next i hi =>
      rw [hi] at hcall
      cases hstep
      exact h.proceed (fun _ => hcall)
    · cases hstep
  | binds thread bound =>
    rw [System.step] at hstep
    have hcall := h.calls thread
    split at hstep
    · next i hi =>
      rw [hi] at hcall
      cases hstep
      exact h.proceed (fun _ => hcall)
    · cases hstep
  | reconfirms thread =>
    rw [System.step] at hstep
    have hcall := h.calls thread
    split at hstep
    · next i hi =>
      rw [hi] at hcall
      cases hstep
      exact h.proceed (fun _ => hcall)
    · cases hstep
  | loads thread index =>
    rw [System.step] at hstep
    split at hstep
    · next i _ hi =>
      cases hstep
      exact h.setCall (h.prepared i (List.mem_of_getElem? hi))
    · cases hstep
  | reads thread =>
    rw [System.step] at hstep
    have hcall := h.calls thread
    split at hstep
    · next stage i hi =>
      rw [hi] at hcall
      cases hstep
      apply h.proceed
      intro hmatches
      rw [Shared.matches, Bool.and_eq_true, decide_eq_true_eq] at hmatches
      exact ⟨hcall.1, hmatches.1.symm, hcall.2, .refl _⟩
    · cases hstep
  | checks thread =>
    rw [System.step] at hstep
    have hcall := h.calls thread
    split at hstep
    · next stage i read hi =>
      rw [hi] at hcall
      split_ifs at hstep with hcurrent
      · cases hstep
        exact h.passed hcall hcurrent
      · cases hstep
        exact h.setCall trivial
    · cases hstep
  | answers thread combined =>
    rw [System.step] at hstep
    have hcall := h.calls thread
    split at hstep
    · next stage i hi =>
      rw [hi] at hcall
      split at hstep
      · cases hstep
        exact h.setCall trivial
      · cases hstep
        exact h.setCall hcall
    · cases hstep
  | accepts thread index =>
    rw [System.step] at hstep
    split at hstep
    · next i _ hi =>
      cases hstep
      exact h.setCall (h.results i (List.mem_of_getElem? hi))
    · cases hstep

end Inv

/-- Whatever the threads and the devices do, a result is accepted only for a current request. -/
theorem accepted_current {manager : DeviceManager τ π} {android_path : Text} {as : List (Action τ π)}
    {s : System τ π} (h : exec (System.step u) (System.init u manager android_path) as = some s) :
    ∀ a ∈ s.accepted, Current (u := u) a :=
  (exec_keeps (Inv (u := u)) (fun _ _ _ hs hstep => hs.step hstep) (.init manager android_path) h).accepted

/-- A manager with the device `s` and its profile. -/
def connected : DeviceManager Nat Nat :=
  (DeviceManager.init .ascii true ['s'] ['T', 'V'] ⟨0, 1, 2, 3⟩).setActive
    { serial := ['s'], mode := adbMode, transportId := ['1'] } none

/-- Thread 0 begins and loads a listing and begins to accept it. -/
def listing : List (Action Nat Nat) :=
  [.begins 0 none false, .takes 0, .captures 0, .confirms 0, .binds 0 true, .reconfirms 0, .reads 0, .checks 0,
    .loads 0 0, .reads 0, .checks 0, .answers 0 (some true), .reads 0, .checks 0, .accepts 0 0, .reads 0]

def sdcard : Text := ['/', 's', 'd', 'c', 'a', 'r', 'd']

def outcome (last : List (Action Nat Nat)) : Option (System Nat Nat) :=
  exec (System.step .ascii) (System.init .ascii connected sdcard) (listing ++ last)

theorem listing_accepted : (outcome [.checks 0]).any (fun s => s.accepted.length = 1) = true := by decide +kernel

theorem accepted_current_listing : ∃ a : Acceptance Nat Nat, Current (u := .ascii) a := by
  obtain ⟨s, hrun, hlength⟩ := (Option.any_eq_true _ _).mp listing_accepted
  obtain ⟨a, ha⟩ := List.length_eq_one_iff.mp (decide_eq_true_eq.mp hlength)
  exact ⟨a, accepted_current hrun a (ha ▸ List.mem_singleton_self a)⟩

/-- The user leaves the folder between the two reads of the check. -/
def leaves : List (Action Nat Nat) := [.change (.setAndroidPath ['/', 't', 'm', 'p']), .checks 0]

theorem leaves_accepted : (outcome leaves).any (fun s => s.accepted.any (fun a =>
    a.returned.androidPath ≠ a.issued.request.requestedPath)) = true := by decide +kernel

/-- A result may be accepted although another folder is shown when the call returns. -/
theorem accepted_for_other_folder :
    ¬ ∀ (manager : DeviceManager Nat Nat) (android_path : Text) (as : List (Action Nat Nat)) (s : System Nat Nat),
      exec (System.step .ascii) (System.init .ascii manager android_path) as = some s →
        ∀ a ∈ s.accepted, a.returned.androidPath = a.issued.request.requestedPath := by
  intro h
  obtain ⟨s, hrun, hany⟩ := (Option.any_eq_true _ _).mp leaves_accepted
  obtain ⟨a, ha, hother⟩ := List.any_eq_true.mp hany
  exact (decide_eq_true_eq.mp hother) (h connected sdcard _ s hrun a ha)

end OpenAdb.Files.FolderListing
