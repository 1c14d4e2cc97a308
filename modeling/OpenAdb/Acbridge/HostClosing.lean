import OpenAdb.Acbridge.PermissionHost
import Mathlib.Logic.Function.Basic

namespace OpenAdb.Acbridge.HostClosing

open OpenAdb.Lib.PyText OpenAdb.Lib.Runs OpenAdb.Acbridge.PermissionHost
open OpenAdb.Shizuku.Cancellation (isValidRequestId)

def Opened (s : State) (i : Nat) (a : Activity) : Prop := s.activities i = some a ∧ a.hostOpened = true

def Unfinished (s : State) (id : Text) : Prop := ∃ i a, Opened s i a ∧ a.finished = false ∧ a.requestId = id

/-- The hosts besides one instance are finished, and none of them has the token. -/
def Alone (s : State) (i : Nat) (id : Option Text) : Prop :=
  ∀ j a, j ≠ i → Opened s j a → a.finished = true ∧ some a.requestId ≠ id

/-- There is one task instance: a host is opened when the hosts that are not destroyed yet are finished ones of other
tokens, and so at any rate when none is left. -/
def OneInstance (s : State) : Event → Prop
  | .create intent _ => Alone s s.nextId intent.requestId
  | .newIntent intent => (∀ a, ¬ Opened s (s.nextId - 1) a) → Alone s (s.nextId - 1) intent.requestId
  | _ => True

/-- The token that an open intent, a completion or a safety timeout is about. -/
def eventToken (s : State) : Event → Option Text
  | .create intent _ | .newIntent intent => intent.requestId
  | .complete id => some id
  | .timeout i => (s.activities i).map Activity.requestId
  | .destroy _ | .death => none

structure Inv (s : State) : Prop where
  fresh : ∀ i a, s.activities i = some a → i < s.nextId
  valid : ∀ i a, Opened s i a → isValidRequestId a.requestId = true
  finished : ∀ i a, s.activities i = some a → a.finished = true →
    a.hostOpened = true ∧ a.terminalCloseRequestId = a.requestId ∧ a.finishing = true
  unfinished : ∀ i a, Opened s i a → a.finished = false →
    s.activeRequest = some i ∧ s.preferences.activeRequest = a.requestId ∧ i + 1 = s.nextId
  active : ∀ i, s.activeRequest = some i → ∃ a, Opened s i a
  distinct : ∀ i j a b, Opened s i a → Opened s j b → a.requestId = b.requestId → i = j

section Operations

variable {lower : Text → Text} {s : State} {i j : Nat} {this a : Activity} {id : Text}

theorem put_self : (s.put i this).activities i = some this := by
  simp only [State.put, Function.update_self]

theorem put_of_ne (h : j ≠ i) : (s.put i this).activities j = s.activities j := by
  simp only [State.put, Function.update_of_ne h]

/-- What an instance is after one of them is replaced. -/
theorem put_cases (h : (s.put i this).activities j = some a) :
    j = i ∧ a = this ∨ j ≠ i ∧ s.activities j = some a := by
  by_cases hj : j = i
  · rw [hj, put_self] at h
    exact Or.inl ⟨hj, (Option.some.inj h).symm⟩
  · rw [put_of_ne hj] at h
    exact Or.inr ⟨hj, h⟩

def closedHost (this : Activity) (id : Text) : Activity :=
  { this with finished := true, terminalCloseRequestId := id, timeout := none, finishing := true }

theorem publishClosed_valid (h : isValidRequestId id = true) :
    publishClosed s id = { s with published := s.published ++ [id] } := if_pos h

theorem finishHost_other (h : s.activities i = some this) (hne : id ≠ this.requestId)
    (hid : isValidRequestId id = true) : finishHost s i id = { s with
      preferences := clearPersistedRequestIfMatching s.preferences id
      published := s.published ++ [id] } := by
  have hvalid : ¬ isValidRequestId id = false := by simp [hid]
  simp only [finishHost, h, if_neg hvalid, if_pos hne, publishClosed_valid hid]

theorem finishHost_own (h : s.activities i = some this) (hid : isValidRequestId this.requestId = true)
    (hactive : s.activeRequest = some i) (hstored : s.preferences.activeRequest = this.requestId)
    (hopen : this.finished = false) :
    finishHost s i this.requestId = { s.put i (closedHost this this.requestId) with
      preferences := { s.preferences with closingRequest := this.requestId } } := by
  have hvalid : ¬ isValidRequestId this.requestId = false := by simp [hid]
  have hguard : ¬ (s.activeRequest ≠ some i ∨ this.requestId ≠ s.preferences.activeRequest) := by
    simp [hactive, hstored]
  simp only [finishHost, h, if_neg hvalid, ne_eq, not_true_eq_false, if_false]
  rw [if_neg hguard, if_neg (Bool.eq_false_iff.mp hopen)]
  rfl

theorem finishHost_finished (h : s.activities i = some this) (hdone : this.finished = true) :
    finishHost s i this.requestId = s := by
  simp only [finishHost, h, ne_eq, not_true_eq_false, if_false, hdone, if_true, ite_self]

theorem finishHost_inactive (h : s.activities i = some this) (hactive : s.activeRequest ≠ some i) :
    finishHost s i this.requestId = s := by
  simp only [finishHost, h, ne_eq, not_true_eq_false, if_false, hactive, not_false_eq_true, true_or, if_true,
    ite_self]

theorem finishHost_none (h : s.activities i = none) : finishHost s i id = s := by
  simp only [finishHost, h]

theorem finishHost_invalid (hid : isValidRequestId id = false) : finishHost s i id = s := by
  rw [finishHost]
  cases s.activities i with
  | none => rfl
  | some this => exact if_pos hid

/-- Of the instances, `finishHost` changes at most the one it is called on. -/
theorem finishHost_of_ne (h : j ≠ i) : (finishHost s i id).activities j = s.activities j := by
  cases hthis : s.activities i with
  | none => rw [finishHost_none hthis]
  | some this =>
    simp only [finishHost, hthis]
    split_ifs <;> first | rfl | exact put_of_ne h | skip
    rw [publishClosed]
    split_ifs <;> rfl

/-- A token that is not the one of the host changes no instance. -/
theorem finishHost_activities (h : s.activities i = some this) (hne : id ≠ this.requestId) :
    (finishHost s i id).activities = s.activities := by
  by_cases hid : isValidRequestId id = true
  · rw [finishHost_other h hne hid]
  · rw [finishHost_invalid (Bool.eq_false_iff.mpr hid)]

theorem finishHost_published (h : s.activities i = some this) :
    (finishHost s i this.requestId).published = s.published := by
  simp only [finishHost, h, ne_eq, not_true_eq_false, if_false]
  split_ifs <;> rfl

theorem finishHost_nextId : (finishHost s i id).nextId = s.nextId := by
  cases hthis : s.activities i with
  | none => rw [finishHost_none hthis]
  | some this =>
    simp only [finishHost, hthis]
    split_ifs <;> first | rfl | skip
    rw [publishClosed]
    split_ifs <;> rfl

def activated (this : Activity) (id backend : Text) (timeoutSeconds : Int) : Activity :=
  { this with
    requestId := id
    backend := backend
    hostOpened := true
    finished := false
    terminalCloseRequestId := []
    timeout := some (max minTimeout (min maxTimeout timeoutSeconds)) }

variable {backend : Text} {intent : Intent} {timeoutSeconds : Int}

theorem activateRequest_self :
    (activateRequest s i this id backend timeoutSeconds).activities i =
      some (activated this id backend timeoutSeconds) := put_self

theorem openHost_of_ne (h : j ≠ i) : (openHost s i this id backend intent).activities j = s.activities j := by
  rw [openHost]
  split_ifs
  · rw [finishHost_of_ne h]
    exact put_of_ne h
  · exact put_of_ne h

theorem openHost_published : (openHost s i this id backend intent).published = s.published := by
  rw [openHost]
  split_ifs
  · exact finishHost_published activateRequest_self
  · rfl

theorem openHost_nextId : (openHost s i this id backend intent).nextId = s.nextId := by
  rw [openHost]
  split_ifs
  · exact finishHost_nextId
  · rfl

end Operations

section Invariant

variable {lower : Text → Text} {s : State} {i j : Nat} {this a b : Activity} {id backend : Text} {intent : Intent}
  {timeoutSeconds : Int}

theorem Inv.empty (hempty : ∀ i, s.activities i = none) (hactive : s.activeRequest = none) : Inv s := by
  have hnone {i : Nat} {a : Activity} (h : s.activities i = some a) : False := by
    rw [hempty i] at h
    cases h
  exact ⟨fun i a h => (hnone h).elim, fun i a h => (hnone h.1).elim, fun i a h => (hnone h).elim,
    fun i a h => (hnone h.1).elim, fun i h => absurd (hactive.symm.trans h) (Option.some_ne_none i).symm,
    fun i j a b h => (hnone h.1).elim⟩

theorem Inv.initial (preferences : Preferences) : Inv (State.initial preferences) := .empty (fun _ => rfl) rfl

/-- One instance is replaced by one with the same token. -/
theorem Inv.put (h : Inv s) (hthis : s.activities i = some this) (hid : b.requestId = this.requestId)
    (hopened : b.hostOpened = this.hostOpened)
    (hfinished : b.finished = true →
      b.hostOpened = true ∧ b.terminalCloseRequestId = b.requestId ∧ b.finishing = true)
    (hopen : b.finished = false → this.finished = false) (closing : Text) :
    Inv { s.put i b with preferences := { s.preferences with closingRequest := closing } } := by
  have hold {j : Nat} {a : Activity} (ha : Opened (s.put i b) j a) :
      ∃ c, Opened s j c ∧ c.requestId = a.requestId ∧ (a.finished = false → c.finished = false) := by
    obtain ⟨rfl, rfl⟩ | ⟨_, hj⟩ := put_cases ha.1
    · exact ⟨this, ⟨hthis, hopened ▸ ha.2⟩, hid.symm, hopen⟩
    · exact ⟨a, ⟨hj, ha.2⟩, rfl, fun h => h⟩
  constructor
  · intro j a ha
    obtain ⟨rfl, rfl⟩ | ⟨_, hj⟩ := put_cases ha
    · exact h.fresh _ _ hthis
    · exact h.fresh j a hj
  · intro j a ha
    obtain ⟨c, hc, htoken, _⟩ := hold ha
    exact htoken ▸ h.valid j c hc
  · intro j a ha
    obtain ⟨rfl, rfl⟩ | ⟨_, hj⟩ := put_cases ha
    · exact hfinished
    · exact h.finished j a hj
  · intro j a ha hfalse
    obtain ⟨c, hc, htoken, hopen⟩ := hold ha
    exact htoken ▸ h.unfinished j c hc (hopen hfalse)
  · intro j hj
    obtain ⟨a, ha⟩ := h.active j hj
    by_cases hji : j = i
    · subst hji
      have hsame : a = this := Option.some.inj (ha.1.symm.trans hthis)
      exact ⟨b, put_self, hopened.trans (hsame ▸ ha.2)⟩
    · exact ⟨a, (put_of_ne hji).trans ha.1, ha.2⟩
  · intro j k a c ha hc heq
    obtain ⟨a', ha', htoken, _⟩ := hold ha
    obtain ⟨c', hc', htoken', _⟩ := hold hc
    exact h.distinct j k a' c' ha' hc' (htoken.trans (heq.trans htoken'.symm))

theorem Inv.finishOwn (h : Inv s) (hthis : Opened s i this) : Inv (finishHost s i this.requestId) := by
  cases hdone : this.finished with
  | true => rwa [finishHost_finished hthis.1 hdone]
  | false =>
    obtain ⟨hactive, hstored, _⟩ := h.unfinished i this hthis hdone
    rw [finishHost_own hthis.1 (h.valid i this hthis) hactive hstored hdone]
    exact h.put (b := closedHost this this.requestId) hthis.1 rfl rfl (fun _ => ⟨hthis.2, rfl, rfl⟩)
      (fun hfalse => Bool.noConfusion hfalse) this.requestId

theorem stored_after_clear {preferences : Preferences} {id : Text} (h : id ≠ preferences.activeRequest) :
    clearPersistedRequestIfMatching preferences id = preferences := if_neg h

/-- Only the active host can be one that is not finished, and it has another token. -/
theorem Inv.finish (h : Inv s) (hactive : s.activeRequest = some i) : Inv (finishHost s i id) := by
  obtain ⟨this, hthis⟩ := h.active i hactive
  by_cases hown : id = this.requestId
  · rw [hown]
    exact h.finishOwn hthis
  by_cases hid : isValidRequestId id = true
  · rw [finishHost_other hthis.1 hown hid]
    refine ⟨h.fresh, h.valid, h.finished, ?_, h.active, h.distinct⟩
    intro j a ha hfalse
    obtain ⟨hj, hstored, hlast⟩ := h.unfinished j a ha hfalse
    have hsame : i = j := Option.some.inj (hactive.symm.trans hj)
    subst hsame
    have htoken : a = this := Option.some.inj (ha.1.symm.trans hthis.1)
    have hne : id ≠ s.preferences.activeRequest := fun hid => hown (by rw [hid, hstored, htoken])
    exact ⟨hj, (congrArg Preferences.activeRequest (stored_after_clear hne)).trans hstored, hlast⟩
  · rwa [finishHost_invalid (Bool.eq_false_iff.mpr hid)]

theorem Inv.activate (h : Inv s) (hlast : i + 1 = s.nextId)
    (halone : Alone s i (some id)) (hid : isValidRequestId id = true) :
    Inv (activateRequest s i this id backend timeoutSeconds) := by
  have hcases {j : Nat} {a : Activity} (ha : Opened (activateRequest s i this id backend timeoutSeconds) j a) :
      j = i ∧ a = activated this id backend timeoutSeconds ∨ j ≠ i ∧ Opened s j a := by
    obtain hi | ⟨hj, hs⟩ := put_cases ha.1
    · exact Or.inl hi
    · exact Or.inr ⟨hj, hs, ha.2⟩
  constructor
  · intro j a ha
    obtain ⟨rfl, _⟩ | ⟨_, hj⟩ := put_cases ha
    · exact Nat.lt_of_succ_le (Nat.le_of_eq hlast)
    · exact h.fresh j a hj
  · intro j a ha
    obtain ⟨_, rfl⟩ | ⟨_, hj⟩ := hcases ha
    · exact hid
    · exact h.valid j a hj
  · intro j a ha hfinished
    obtain ⟨_, rfl⟩ | ⟨_, hj⟩ := put_cases ha
    · exact Bool.noConfusion hfinished
    · exact h.finished j a hj hfinished
  · intro j a ha hfalse
    obtain ⟨rfl, rfl⟩ | ⟨hne, hj⟩ := hcases ha
    · exact ⟨rfl, rfl, hlast⟩
    · exact absurd ((halone j a hne hj).1.symm.trans hfalse) Bool.noConfusion
  · intro j hj
    obtain rfl : i = j := Option.some.inj hj
    exact ⟨_, activateRequest_self, rfl⟩
  · intro j k a c ha hc heq
    obtain ⟨rfl, rfl⟩ | ⟨hj, hja⟩ := hcases ha
    · obtain ⟨rfl, _⟩ | ⟨hk, hkc⟩ := hcases hc
      · rfl
      · exact absurd (congrArg some heq.symm) (halone k c hk hkc).2
    · obtain ⟨rfl, rfl⟩ | ⟨_, hkc⟩ := hcases hc
      · exact absurd (congrArg some heq) (halone j a hj hja).2
      · exact h.distinct j k a c hja hkc heq

theorem Inv.openHost (h : Inv s) (hlast : i + 1 = s.nextId)
    (halone : Alone s i (some id)) (hid : isValidRequestId id = true) :
    Inv (openHost s i this id backend intent) := by
  have hopened := @Inv.activate s i this id backend intent.timeoutSeconds h hlast halone hid
  rw [PermissionHost.openHost]
  split_ifs
  · exact hopened.finishOwn ⟨activateRequest_self, rfl⟩
  · exact hopened

theorem Inv.finishOther (h : Inv s) (hactive : s.activeRequest = some i) (hj : Opened s j a)
    (hne : a.requestId ≠ id) : (finishHost s i id).activities j = some a := by
  obtain ⟨this, hthis⟩ := h.active i hactive
  by_cases hown : id = this.requestId
  · have hji : j ≠ i := by
      rintro rfl
      exact hne (by rw [hown, Option.some.inj (hj.1.symm.trans hthis.1)])
    exact (finishHost_of_ne hji).trans hj.1
  · rw [finishHost_activities hthis.1 hown]
    exact hj.1

theorem openRequest_some (h : openRequest lower intent = some (id, backend)) :
    intent.requestId = some id ∧ isValidRequestId id = true := by
  rw [openRequest] at h
  cases hid : intent.requestId with
  | none =>
    rw [hid] at h
    cases h
  | some token =>
    rw [hid] at h
    simp only at h
    split_ifs at h with hbad
    obtain ⟨rfl, _⟩ := Prod.mk.inj (Option.some.inj h)
    push Not at hbad
    exact ⟨rfl, Bool.eq_true_of_not_eq_false hbad.2.1⟩

/-- A new instance that is no host yet. -/
theorem Inv.unopened (h : Inv s) (hlast : i + 1 = s.nextId) (hnew : s.activities i = none)
    (hb : b.hostOpened = false ∧ b.finished = false) : Inv (s.put i b) := by
  have hold {j : Nat} {a : Activity} (ha : Opened (s.put i b) j a) : Opened s j a := by
    obtain ⟨_, rfl⟩ | ⟨_, hj⟩ := put_cases ha.1
    · exact absurd (ha.2.symm.trans hb.1) Bool.noConfusion
    · exact ⟨hj, ha.2⟩
  constructor
  · intro j a ha
    obtain ⟨rfl, _⟩ | ⟨_, hj⟩ := put_cases ha
    · exact Nat.lt_of_succ_le (Nat.le_of_eq hlast)
    · exact h.fresh j a hj
  · exact fun j a ha => h.valid j a (hold ha)
  · intro j a ha hfinished
    obtain ⟨_, rfl⟩ | ⟨_, hj⟩ := put_cases ha
    · exact absurd (hfinished.symm.trans hb.2) Bool.noConfusion
    · exact h.finished j a hj hfinished
  · exact fun j a ha => h.unfinished j a (hold ha)
  · intro j hj
    obtain ⟨a, ha⟩ := h.active j hj
    have hji : j ≠ i := by
      rintro rfl
      exact absurd (ha.1.symm.trans hnew) (Option.some_ne_none a)
    exact ⟨a, (put_of_ne hji).trans ha.1, ha.2⟩
  · exact fun j k a c ha hc => h.distinct j k a c (hold ha) (hold hc)

theorem Inv.publish (h : Inv s) : Inv (publishClosed s id) := by
  rw [publishClosed]
  split_ifs
  · exact ⟨h.fresh, h.valid, h.finished, h.unfinished, h.active, h.distinct⟩
  · exact h

/-- The state in which the next instance is numbered. -/
theorem Inv.number (h : Inv s) {token : Option Text} (halone : Alone s s.nextId token) :
    Inv { s with nextId := s.nextId + 1 } where
  fresh i a ha := Nat.lt_succ_of_lt (h.fresh i a ha)
  valid := h.valid
  finished := h.finished
  unfinished i a ha hfalse := absurd ((halone i a (Nat.ne_of_lt (h.fresh i a ha.1)) ha).1.symm.trans hfalse)
    Bool.noConfusion
  active := h.active
  distinct := h.distinct

theorem Inv.next (h : Inv s) : s.activities s.nextId = none := by
  cases hnext : s.activities s.nextId with
  | none => rfl
  | some a => exact absurd (h.fresh s.nextId a hnext) (lt_irrefl _)

theorem Inv.onCreate (h : Inv s) {saved : Bool} (halone : Alone s s.nextId intent.requestId) :
    Inv (onCreate lower s intent saved) := by
  have hnumber := h.number halone
  have hclosed := hnumber.unopened (b := { Activity.new with finishing := true }) rfl h.next ⟨rfl, rfl⟩
  rw [PermissionHost.onCreate]
  cases hrequest : openRequest lower intent with
  | none => exact hclosed
  | some request =>
    obtain ⟨id, backend⟩ := request
    obtain ⟨htoken, hid⟩ := openRequest_some hrequest
    simp only
    split_ifs
    · exact hclosed.publish
    · exact hnumber.openHost rfl (htoken ▸ halone) hid

theorem Inv.onNewIntent (h : Inv s) (hthis : s.activities i = some this) (hlast : i + 1 = s.nextId)
    (halone : this.hostOpened = false → Alone s i intent.requestId) : Inv (onNewIntent lower s i this intent) := by
  rw [PermissionHost.onNewIntent]
  cases hrequest : openRequest lower intent with
  | none => exact h
  | some request =>
    obtain ⟨id, backend⟩ := request
    obtain ⟨htoken, hid⟩ := openRequest_some hrequest
    simp only
    split_ifs with hopened hne
    · exact h.publish
    · rw [← not_ne_iff.mp hne]
      exact h.finishOwn ⟨hthis, hopened⟩
    · exact h
    · exact h.openHost hlast (htoken ▸ halone (Bool.eq_false_iff.mpr hopened)) hid

/-- Without a host a completion asks for a new instance, or publishes. -/
theorem completeRequest_idle (hactive : s.activeRequest = none) :
    (∃ preferences started, preferences.activeRequest = s.preferences.activeRequest ∧
      completeRequest lower s id = { s with preferences := preferences, started := started }) ∨
    completeRequest lower s id = publishClosed s id := by
  simp only [completeRequest, hactive]
  split_ifs
  · exact Or.inl ⟨s.preferences, s.started, rfl, by rw [← hactive]⟩
  · exact Or.inl ⟨s.preferences, s.started, rfl, by rw [← hactive]⟩
  · exact Or.inl ⟨{ s.preferences with closingRequest := id }, _, rfl, by rw [← hactive]⟩
  · exact Or.inr rfl

theorem completeRequest_active (hactive : s.activeRequest = some i) :
    completeRequest lower s id = finishHost s i id := by
  simp only [completeRequest, hactive]
  split_ifs with hid
  · exact (finishHost_invalid hid).symm
  · rfl

theorem Inv.complete (h : Inv s) : Inv (completeRequest lower s id) := by
  cases hactive : s.activeRequest with
  | some i =>
    rw [completeRequest_active hactive]
    exact h.finish hactive
  | none =>
    obtain ⟨preferences, started, hsame, heq⟩ | heq := @completeRequest_idle lower s id hactive
    · rw [heq]
      exact ⟨h.fresh, h.valid, h.finished, fun i a ha hfalse => hsame ▸ h.unfinished i a ha hfalse, h.active,
        h.distinct⟩
    · rw [heq]
      exact h.publish

def gone (s : State) (i : Nat) : State :=
  { s with
    activities := Function.update s.activities i none
    activeRequest := if s.activeRequest = some i then none else s.activeRequest }

theorem gone_self : (gone s i).activities i = none := by simp only [gone, Function.update_self]

theorem gone_of_ne (h : j ≠ i) : (gone s i).activities j = s.activities j := by
  simp only [gone, Function.update_of_ne h]

theorem gone_cases (h : (gone s i).activities j = some a) : j ≠ i ∧ s.activities j = some a := by
  by_cases hj : j = i
  · rw [hj, gone_self] at h
    cases h
  · rw [gone_of_ne hj] at h
    exact ⟨hj, h⟩

theorem onDestroy_finished (h : Inv s) (hthis : s.activities i = some this) (hfinished : this.finished = true) :
    onDestroy s i this = { gone s i with
      preferences := clearPersistedRequestIfMatching s.preferences this.requestId
      published := s.published ++ [this.requestId] } := by
  obtain ⟨hopened, htoken, _⟩ := h.finished i this hthis hfinished
  have hvalid := h.valid i this ⟨hthis, hopened⟩
  rw [onDestroy, htoken]
  simp only
  rw [if_pos ⟨hfinished, hvalid, trivial⟩, publishClosed_valid hvalid]
  rfl

theorem onDestroy_unfinished (hopen : this.finished = false) : onDestroy s i this = gone s i :=
  if_neg (fun h => Bool.eq_false_iff.mp hopen h.1)

theorem Inv.gone (h : Inv s) (preferences : Preferences) (published : List Text)
    (hstored : ∀ j a, j ≠ i → Opened s j a → a.finished = false →
      preferences.activeRequest = s.preferences.activeRequest) :
    Inv { gone s i with preferences := preferences, published := published } := by
  have hold {j : Nat} {a : Activity} (ha : Opened (HostClosing.gone s i) j a) : j ≠ i ∧ Opened s j a :=
    ⟨(gone_cases ha.1).1, (gone_cases ha.1).2, ha.2⟩
  constructor
  · exact fun j a ha => h.fresh j a (gone_cases ha).2
  · exact fun j a ha => h.valid j a (hold ha).2
  · exact fun j a ha => h.finished j a (gone_cases ha).2
  · intro j a ha hfalse
    obtain ⟨hne, hj⟩ := hold ha
    obtain ⟨hactive, htoken, hlast⟩ := h.unfinished j a hj hfalse
    have hother : ¬ s.activeRequest = some i := fun hi => hne (Option.some.inj (hactive.symm.trans hi))
    exact ⟨(if_neg hother).trans hactive, (hstored j a hne hj hfalse).trans htoken, hlast⟩
  · intro j hj
    change (if s.activeRequest = some i then none else s.activeRequest) = some j at hj
    split_ifs at hj with hi
    obtain ⟨a, ha⟩ := h.active j hj
    have hne : j ≠ i := fun heq => hi (heq ▸ hj)
    exact ⟨a, (gone_of_ne hne).trans ha.1, ha.2⟩
  · exact fun j k a c ha hc => h.distinct j k a c (hold ha).2 (hold hc).2

theorem Inv.destroy (h : Inv s) (hthis : s.activities i = some this) : Inv (onDestroy s i this) := by
  cases hfinished : this.finished with
  | false =>
    rw [onDestroy_unfinished hfinished]
    exact h.gone s.preferences s.published (fun _ _ _ _ _ => rfl)
  | true =>
    rw [onDestroy_finished h hthis hfinished]
    apply h.gone
    intro j a hne ha hfalse
    apply congrArg
    apply stored_after_clear
    intro hsame
    have hstored := (h.unfinished j a ha hfalse).2.1
    exact hne (h.distinct j i a this ha ⟨hthis, (h.finished i this hthis hfinished).1⟩ (by rw [← hstored, ← hsame]))

def waited (this : Activity) : Activity := { this with timeout := none }

theorem timeout_cases {s' : State} (h : step lower s (.timeout i) = some s') :
    ∃ this, s.activities i = some this ∧ s' = finishHost (s.put i (waited this)) i (waited this).requestId := by
  rw [PermissionHost.step] at h
  cases hthis : s.activities i with
  | none =>
    rw [hthis] at h
    cases h
  | some this =>
    rw [hthis] at h
    simp only at h
    split_ifs at h
    exact ⟨this, rfl, (Option.some.inj h).symm⟩

theorem Inv.timeout (h : Inv s) (hthis : s.activities i = some this) :
    Inv (finishHost (s.put i (waited this)) i (waited this).requestId) := by
  have hwaited : Inv (s.put i (waited this)) :=
    h.put (b := waited this) hthis rfl rfl (h.finished i this hthis) (fun hopen => hopen)
      s.preferences.closingRequest
  by_cases hactive : (s.put i (waited this)).activeRequest = some i
  · exact hwaited.finish hactive
  · rwa [finishHost_inactive put_self hactive]

theorem Inv.step {e : Event} {s' : State} (h : Inv s) (hone : OneInstance s e) (hstep : step lower s e = some s') :
    Inv s' := by
  cases e with
  | create intent saved =>
    cases hstep
    exact h.onCreate hone
  | newIntent intent =>
    obtain ⟨this, hthis, rfl⟩ := Option.map_eq_some_iff.mp hstep
    have hlast := h.fresh _ this hthis
    apply h.onNewIntent hthis (by omega)
    intro hclosed
    apply hone
    intro a ha
    rw [Option.some.inj (hthis.symm.trans ha.1), ha.2] at hclosed
    exact Bool.noConfusion hclosed
  | complete id =>
    cases hstep
    exact h.complete
  | timeout i =>
    obtain ⟨this, hthis, rfl⟩ := timeout_cases hstep
    exact h.timeout hthis
  | destroy i =>
    obtain ⟨this, hthis, rfl⟩ := Option.map_eq_some_iff.mp hstep
    exact h.destroy hthis
  | death =>
    cases hstep
    exact .empty (fun _ => rfl) rfl

end Invariant

section Steps

variable {lower : Text → Text} {s s' : State} {e : Event} {i j : Nat} {this a b : Activity} {id backend : Text}
  {intent : Intent} {saved : Bool}

theorem Unfinished.of_subset (hsub : ∀ i a, Opened s' i a → Opened s i a) (h : Unfinished s' id) :
    Unfinished s id := by
  obtain ⟨i, a, ha, hopen⟩ := h
  exact ⟨i, a, hsub i a ha, hopen⟩

theorem publishClosed_activities : (publishClosed s id).activities = s.activities := by
  rw [publishClosed]
  split_ifs <;> rfl

theorem onCreate_of_ne (h : j ≠ s.nextId) : (onCreate lower s intent saved).activities j = s.activities j := by
  rw [onCreate]
  cases openRequest lower intent with
  | none => exact put_of_ne h
  | some request =>
    simp only
    split_ifs
    · rw [publishClosed_activities]
      exact put_of_ne h
    · exact openHost_of_ne h

theorem onNewIntent_of_ne (h : j ≠ i) : (onNewIntent lower s i this intent).activities j = s.activities j := by
  rw [onNewIntent]
  cases openRequest lower intent with
  | none => rfl
  | some request =>
    simp only
    split_ifs
    · rw [publishClosed_activities]
    · exact finishHost_of_ne h
    · rfl
    · exact openHost_of_ne h

/-- An instance changes only through an event of its own token. -/
theorem other_unchanged (h : Inv s) (hstep : step lower s e = some s') (htoken : eventToken s e = some id)
    (ha : Opened s i a) (hne : a.requestId ≠ id) : s'.activities i = some a := by
  cases e with
  | create intent saved =>
    cases hstep
    rw [onCreate_of_ne (Nat.ne_of_lt (h.fresh i a ha.1))]
    exact ha.1
  | newIntent intent =>
    obtain ⟨this, hthis, rfl⟩ := Option.map_eq_some_iff.mp hstep
    by_cases hi : i = s.nextId - 1
    · subst hi
      obtain rfl : a = this := Option.some.inj (ha.1.symm.trans hthis)
      rw [onNewIntent]
      cases hrequest : openRequest lower intent with
      | none => exact ha.1
      | some request =>
        obtain ⟨own, backend⟩ := request
        have hown : own = id := Option.some.inj ((openRequest_some hrequest).1.symm.trans htoken)
        simp only [ha.2, if_true, hown, ne_eq, hne, not_false_eq_true, publishClosed_activities]
        exact ha.1
    · rw [onNewIntent_of_ne hi]
      exact ha.1
  | complete token =>
    cases hstep
    cases htoken
    cases hactive : s.activeRequest with
    | some k =>
      rw [completeRequest_active hactive]
      exact h.finishOther hactive ha hne
    | none =>
      obtain ⟨preferences, started, _, heq⟩ | heq := @completeRequest_idle lower s id hactive
      · rw [heq]
        exact ha.1
      · rw [heq, publishClosed_activities]
        exact ha.1
  | timeout k =>
    obtain ⟨this, hthis, rfl⟩ := timeout_cases hstep
    have hid : this.requestId = id := by
      rw [eventToken, hthis] at htoken
      exact Option.some.inj htoken
    have hik : i ≠ k := by
      rintro rfl
      exact hne (by rw [Option.some.inj (ha.1.symm.trans hthis), hid])
    rw [finishHost_of_ne hik, put_of_ne hik]
    exact ha.1
  | destroy k => cases htoken
  | death => cases htoken

/-- A step publishes at most one token, of which no unfinished host is left. -/
theorem step_published (h : Inv s) (hone : OneInstance s e) (hstep : step lower s e = some s') :
    s'.published = s.published ∨
      ∃ id, s'.published = s.published ++ [id] ∧ ¬ Unfinished s id ∧ ¬ Unfinished s' id := by
  cases e with
  | create intent saved =>
    cases hstep
    have hnone (id : Text) : ¬ Unfinished s id := by
      rintro ⟨i, a, ha, hopen, _⟩
      have hdone := (hone i a (Nat.ne_of_lt (h.fresh i a ha.1)) ha).1
      rw [hopen] at hdone
      exact Bool.noConfusion hdone
    rw [onCreate]
    cases hrequest : openRequest lower intent with
    | none => exact Or.inl rfl
    | some request =>
      obtain ⟨id, backend⟩ := request
      have hid := (openRequest_some hrequest).2
      simp only
      split_ifs
      · refine Or.inr ⟨id, congrArg State.published (publishClosed_valid hid), hnone id, fun hopen => hnone id ?_⟩
        refine hopen.of_subset (fun i a ha => ?_)
        have hput := ha.1
        rw [publishClosed_activities] at hput
        obtain ⟨_, rfl⟩ | ⟨_, hs⟩ := put_cases hput
        · exact Bool.noConfusion ha.2
        · exact ⟨hs, ha.2⟩
      · exact Or.inl openHost_published
  | newIntent intent =>
    obtain ⟨this, hthis, rfl⟩ := Option.map_eq_some_iff.mp hstep
    rw [onNewIntent]
    cases hrequest : openRequest lower intent with
    | none => exact Or.inl rfl
    | some request =>
      obtain ⟨id, backend⟩ := request
      have hid := (openRequest_some hrequest).2
      simp only
      split_ifs with hopened hne
      · have hnone : ¬ Unfinished s id := by
          rintro ⟨j, a, ha, hopen, htoken⟩
          have hlast := (h.unfinished j a ha hopen).2.2
          have hj : j = s.nextId - 1 := by omega
          subst hj
          exact hne (by rw [← htoken, Option.some.inj (ha.1.symm.trans hthis)])
        exact Or.inr ⟨id, congrArg State.published (publishClosed_valid hid), hnone,
          fun hopen => hnone (hopen.of_subset (fun i a ha => ⟨publishClosed_activities ▸ ha.1, ha.2⟩))⟩
      · rw [← not_ne_iff.mp hne]
        exact Or.inl (finishHost_published hthis)
      · exact Or.inl rfl
      · exact Or.inl openHost_published
  | complete id =>
    cases hstep
    cases hactive : s.activeRequest with
    | none =>
      obtain ⟨preferences, started, _, heq⟩ | heq := @completeRequest_idle lower s id hactive
      · exact Or.inl (by rw [heq])
      · have hnone : ¬ Unfinished s id := by
          rintro ⟨j, a, ha, hopen, _⟩
          rw [(h.unfinished j a ha hopen).1] at hactive
          cases hactive
        rw [heq]
        by_cases hid : isValidRequestId id = true
        · exact Or.inr ⟨id, congrArg State.published (publishClosed_valid hid), hnone,
            fun hopen => hnone (hopen.of_subset (fun i a ha => ⟨publishClosed_activities ▸ ha.1, ha.2⟩))⟩
        · exact Or.inl (congrArg State.published (if_neg hid))
    | some k =>
      obtain ⟨this, hthis⟩ := h.active k hactive
      rw [completeRequest_active hactive]
      by_cases hown : id = this.requestId
      · rw [hown]
        exact Or.inl (finishHost_published hthis.1)
      by_cases hid : isValidRequestId id = true
      · have hnone : ¬ Unfinished s id := by
          rintro ⟨j, a, ha, hopen, htoken⟩
          have hjk : k = j := Option.some.inj (hactive.symm.trans (h.unfinished j a ha hopen).1)
          subst hjk
          exact hown (by rw [← htoken, Option.some.inj (ha.1.symm.trans hthis.1)])
        rw [finishHost_other hthis.1 hown hid]
        exact Or.inr ⟨id, rfl, hnone, fun hopen => hnone (hopen.of_subset (fun i a ha => ha))⟩
      · rw [finishHost_invalid (Bool.eq_false_iff.mpr hid)]
        exact Or.inl rfl
  | timeout k =>
    obtain ⟨this, hthis, rfl⟩ := timeout_cases hstep
    exact Or.inl (finishHost_published put_self)
  | destroy k =>
    obtain ⟨this, hthis, rfl⟩ := Option.map_eq_some_iff.mp hstep
    cases hfinished : this.finished with
    | false =>
      rw [onDestroy_unfinished hfinished]
      exact Or.inl rfl
    | true =>
      have hnone : ¬ Unfinished s this.requestId := by
        rintro ⟨j, a, ha, hopen, htoken⟩
        have hjk := h.distinct j k a this ha ⟨hthis, (h.finished k this hthis hfinished).1⟩ htoken
        subst hjk
        rw [Option.some.inj (ha.1.symm.trans hthis), hfinished] at hopen
        exact Bool.noConfusion hopen
      rw [onDestroy_finished h hthis hfinished]
      exact Or.inr ⟨this.requestId, rfl, hnone,
        fun hopen => hnone (hopen.of_subset (fun i a ha => ⟨(gone_cases ha.1).2, ha.2⟩))⟩
  | death =>
    cases hstep
    exact Or.inl rfl

theorem finishHost_done (h : s.activities i = some this) (hdone : this.finished = true) :
    (finishHost s i id).activities = s.activities := by
  by_cases hown : id = this.requestId
  · rw [hown, finishHost_finished h hdone]
  · exact finishHost_activities h hown

/-- A finished host stays finished, with its token, until it is destroyed. -/
theorem finished_stays (h : Inv s) (hi : i < s.nextId)
    (hdone : ∀ c, s.activities i = some c → c.finished = true ∧ c.requestId = id) (hstep : step lower s e = some s')
    (hb : s'.activities i = some b) : b.finished = true ∧ b.requestId = id := by
  cases e with
  | create intent saved =>
    cases hstep
    rw [onCreate_of_ne (Nat.ne_of_lt hi)] at hb
    exact hdone b hb
  | newIntent intent =>
    obtain ⟨this, hthis, rfl⟩ := Option.map_eq_some_iff.mp hstep
    by_cases hnewest : i = s.nextId - 1
    · subst hnewest
      have hfinished := (hdone this hthis).1
      have hopened := (h.finished _ this hthis hfinished).1
      rw [onNewIntent] at hb
      cases hrequest : openRequest lower intent with
      | none =>
        rw [hrequest] at hb
        exact hdone b hb
      | some request =>
        rw [hrequest] at hb
        simp only [hopened, if_true] at hb
        split_ifs at hb
        · rw [publishClosed_activities] at hb
          exact hdone b hb
        · rw [finishHost_done hthis hfinished] at hb
          exact hdone b hb
        · exact hdone b hb
    · rw [onNewIntent_of_ne hnewest] at hb
      exact hdone b hb
  | complete token =>
    cases hstep
    cases hactive : s.activeRequest with
    | none =>
      obtain ⟨preferences, started, _, heq⟩ | heq := @completeRequest_idle lower s token hactive
      · rw [heq] at hb
        exact hdone b hb
      · rw [heq, publishClosed_activities] at hb
        exact hdone b hb
    | some k =>
      rw [completeRequest_active hactive] at hb
      by_cases hik : i = k
      · subst hik
        obtain ⟨this, hthis⟩ := h.active i hactive
        rw [finishHost_done hthis.1 (hdone this hthis.1).1] at hb
        exact hdone b hb
      · rw [finishHost_of_ne hik] at hb
        exact hdone b hb
  | timeout k =>
    obtain ⟨this, hthis, rfl⟩ := timeout_cases hstep
    by_cases hik : i = k
    · subst hik
      have hfinished := hdone this hthis
      have hput : (s.put i (waited this)).activities i = some (waited this) := put_self
      rw [finishHost_done hput hfinished.1, hput] at hb
      exact Option.some.inj hb ▸ hfinished
    · rw [finishHost_of_ne hik, put_of_ne hik] at hb
      exact hdone b hb
  | destroy k =>
    obtain ⟨this, hthis, rfl⟩ := Option.map_eq_some_iff.mp hstep
    have hgone : (onDestroy s k this).activities = (gone s k).activities := by
      rw [onDestroy]
      simp only
      by_cases hterminal : this.finished = true ∧ isValidRequestId this.terminalCloseRequestId = true ∧
          this.terminalCloseRequestId = this.requestId
      · rw [if_pos hterminal, publishClosed_activities]
        rfl
      · rw [if_neg hterminal]
        rfl
    rw [hgone] at hb
    exact hdone b (gone_cases hb).2
  | death =>
    cases hstep
    cases hb

theorem publishClosed_nextId : (publishClosed s id).nextId = s.nextId := by
  rw [publishClosed]
  split_ifs <;> rfl

/-- The numbers of instances are not used again. -/
theorem nextId_le (hstep : step lower s e = some s') : s.nextId ≤ s'.nextId := by
  cases e with
  | create intent saved =>
    cases hstep
    have hnumber : (onCreate lower s intent saved).nextId = s.nextId + 1 := by
      rw [onCreate]
      cases openRequest lower intent with
      | none => rfl
      | some request =>
        simp only
        split_ifs
        · exact publishClosed_nextId
        · exact openHost_nextId
    rw [hnumber]
    exact Nat.le_succ _
  | newIntent intent =>
    obtain ⟨this, _, rfl⟩ := Option.map_eq_some_iff.mp hstep
    rw [onNewIntent]
    cases openRequest lower intent with
    | none => exact le_rfl
    | some request =>
      simp only
      split_ifs
      · exact publishClosed_nextId.ge
      · exact finishHost_nextId.ge
      · exact le_rfl
      · exact openHost_nextId.ge
  | complete id =>
    cases hstep
    cases hactive : s.activeRequest with
    | none =>
      obtain ⟨preferences, started, _, heq⟩ | heq := @completeRequest_idle lower s id hactive
      · rw [heq]
      · rw [heq, publishClosed_nextId]
    | some k => rw [completeRequest_active hactive, finishHost_nextId]
  | timeout k =>
    obtain ⟨this, _, rfl⟩ := timeout_cases hstep
    rw [finishHost_nextId]
    exact le_rfl
  | destroy k =>
    obtain ⟨this, _, rfl⟩ := Option.map_eq_some_iff.mp hstep
    rw [onDestroy]
    simp only
    by_cases hterminal : this.finished = true ∧ isValidRequestId this.terminalCloseRequestId = true ∧
        this.terminalCloseRequestId = this.requestId
    · rw [if_pos hterminal, publishClosed_nextId]
    · rw [if_neg hterminal]
  | death =>
    cases hstep
    exact le_rfl

theorem complete_finishes (h : Inv s) (ha : Opened s i a) :
    ∃ b, (completeRequest lower s a.requestId).activities i = some b ∧ b.finished = true ∧
      b.requestId = a.requestId := by
  cases hdone : a.finished with
  | true =>
    have hkept : (completeRequest lower s a.requestId).activities i = some a := by
      cases hactive : s.activeRequest with
      | none =>
        obtain ⟨preferences, started, _, heq⟩ | heq :=
          @completeRequest_idle lower s a.requestId hactive
        · rw [heq]
          exact ha.1
        · rw [heq, publishClosed_activities]
          exact ha.1
      | some k =>
        rw [completeRequest_active hactive]
        by_cases hik : i = k
        · rw [← hik, finishHost_finished ha.1 hdone]
          exact ha.1
        · exact (finishHost_of_ne hik).trans ha.1
    exact ⟨a, hkept, hdone, rfl⟩
  | false =>
    obtain ⟨hactive, hstored, _⟩ := h.unfinished i a ha hdone
    rw [completeRequest_active hactive, finishHost_own ha.1 (h.valid i a ha) hactive hstored hdone]
    exact ⟨closedHost a a.requestId, put_self, rfl, rfl⟩

end Steps

/-- In every run of one task instance: a host is left as it is by the intents, the completions and the safety
timeouts of other tokens; a token is published as closed only when no unfinished host of it is live; and a host whose
token is completed is finished, and its destruction publishes the token. -/
theorem closed_by_own_token {lower : Text → Text} {preferences : Preferences} {past : List Event} {s : State}
    (hpast : Along (step lower) OneInstance (State.initial preferences) past)
    (hrun : exec (step lower) (State.initial preferences) past = some s) :
    (∀ e s', OneInstance s e → step lower s e = some s' →
      (∀ id, eventToken s e = some id → ∀ i a, Opened s i a → a.requestId ≠ id → s'.activities i = some a) ∧
      (∀ new, s'.published = s.published ++ new → ∀ id ∈ new, ¬ Unfinished s id ∧ ¬ Unfinished s' id)) ∧
    (∀ i a, Opened s i a → ∀ s', step lower s (.complete a.requestId) = some s' →
      (∃ b, s'.activities i = some b ∧ b.finished = true ∧ b.finishing = true ∧ b.requestId = a.requestId) ∧
      ∀ later t, Along (step lower) OneInstance s' later → exec (step lower) s' later = some t →
        ∀ b, t.activities i = some b → b.finished = true ∧
          (step lower t (.destroy i)).map State.published = some (t.published ++ [a.requestId])) := by
  have hinv : Inv s := exec_along Inv (fun _ _ _ h => h.step) (.initial preferences) hpast hrun
  refine ⟨fun e s' hone hstep => ⟨?_, ?_⟩, fun i a ha s' hstep => ⟨?_, ?_⟩⟩
  · exact fun id htoken i a ha hne => other_unchanged hinv hstep htoken ha hne
  · intro new hnew id hid
    obtain hsame | ⟨token, hpublished, hnone⟩ := step_published hinv hone hstep
    · rw [hsame] at hnew
      rw [List.append_cancel_left ((List.append_nil _).trans hnew).symm] at hid
      exact absurd hid List.not_mem_nil
    · rw [hpublished] at hnew
      rw [← List.append_cancel_left hnew] at hid
      exact List.mem_singleton.mp hid ▸ hnone
  · cases hstep
    obtain ⟨b, hb, hfinished, htoken⟩ := @complete_finishes lower s i a hinv ha
    exact ⟨b, hb, hfinished, (hinv.complete.finished i b hb hfinished).2.2, htoken⟩
  · cases hstep
    intro later t hlater hend b hb
    have hkept : Inv t ∧ i < t.nextId ∧
        ∀ c, t.activities i = some c → c.finished = true ∧ c.requestId = a.requestId := by
      refine exec_along (fun t => Inv t ∧ i < t.nextId ∧
        ∀ c, t.activities i = some c → c.finished = true ∧ c.requestId = a.requestId) ?_ ?_ hlater hend
      · rintro t e t' ⟨hinv', hi, hdone⟩ hone hstep
        exact ⟨hinv'.step hone hstep, hi.trans_le (nextId_le hstep),
          fun c hc => finished_stays hinv' hi hdone hstep hc⟩
      · obtain ⟨b, hb, hdone⟩ := @complete_finishes lower s i a hinv ha
        exact ⟨hinv.complete, hinv.complete.fresh i b hb, fun c hc => Option.some.inj (hb.symm.trans hc) ▸ hdone⟩
    obtain ⟨hinv', _, hdone⟩ := hkept
    obtain ⟨hfinished, htoken⟩ := hdone b hb
    refine ⟨hfinished, ?_⟩
    rw [step, hb, Option.map_some, Option.map_some, onDestroy_finished hinv' hb hfinished, htoken]

def token : Text := List.replicate 32 '0'

def opening : Intent := ⟨some "open".toList, some "root".toList, some token, false, 300⟩

/-- A host is opened by the first intent and finished by the completion of its token. -/
theorem token_closed : ∃ s, exec (step id) (State.initial ⟨[], [], []⟩) [.create opening false] = some s ∧
    ∀ s', step id s (.complete token) = some s' →
      ∃ b, s'.activities 0 = some b ∧ b.finished = true ∧ b.finishing = true ∧ b.requestId = token := by
  have hpast : Along (step id) OneInstance (State.initial ⟨[], [], []⟩) [.create opening false] :=
    ⟨fun _ a _ ha => absurd ha.1.symm (Option.some_ne_none a), trivial⟩
  have hopened : openRequest id opening = some (token, "root".toList) := by decide
  have hcreate : onCreate id (State.initial ⟨[], [], []⟩) opening false =
      activateRequest { State.initial ⟨[], [], []⟩ with nextId := 1 } 0 Activity.new token "root".toList 300 := by
    simp only [onCreate, hopened]
    rfl
  refine ⟨_, rfl, fun s' hstep => ?_⟩
  have hhost : Opened (onCreate id (State.initial ⟨[], [], []⟩) opening false) 0
      (activated Activity.new token "root".toList 300) := by
    rw [hcreate]
    exact ⟨activateRequest_self, rfl⟩
  exact ((closed_by_own_token hpast rfl).2 0 _ hhost s' hstep).1

end OpenAdb.Acbridge.HostClosing
