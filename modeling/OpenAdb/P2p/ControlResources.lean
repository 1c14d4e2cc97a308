import Mathlib.Data.List.Basic
import Mathlib.Logic.Function.Basic
import OpenAdb.Lib.Runs

namespace OpenAdb.P2p.ControlResources

open OpenAdb.Lib.Runs

variable {τ α : Type} [DecidableEq τ]

inductive Field
  | controlListener | controlSocket | dataServer | dataSocket
  deriving DecidableEq

/-- Where a thread is between the flag that it sets and the section that closes. -/
inductive Call
  | idle | cancelling | finishing
  deriving DecidableEq

structure ControlSession (τ α : Type) where
  cancelled : Bool
  completed : Bool
  fields : Field → Option α
  controlOutput : Option α
  calls : τ → Call
  closed : List α

def ControlSession.new : ControlSession τ α := ⟨false, false, fun _ => none, none, fun _ => .idle, []⟩

inductive Action (τ α : Type)
  | attachControlListener (listener : α)
  | attachControlSocket (socket : α)
  | attachControlOutput (output : α)
  | attachDataServer (server : α)
  | attachDataSocket (socket : α)
  | cancel (thread : τ)
  | cancelReturns (thread : τ)
  | finish (thread : τ)
  | finishReturns (thread : τ)
  | closeControlResources
  | complete
  deriving DecidableEq

def ControlSession.refuses (s : ControlSession τ α) : Bool := s.cancelled || s.completed

def ControlSession.attach (s : ControlSession τ α) (f : Field) (endpoint : α) : ControlSession τ α :=
  if s.refuses then { s with closed := endpoint :: s.closed }
  else { s with fields := Function.update s.fields f (some endpoint) }

def attachControlListener (s : ControlSession τ α) : α → ControlSession τ α :=
  s.attach .controlListener

def attachControlSocket (s : ControlSession τ α) : α → ControlSession τ α := s.attach .controlSocket

def attachDataServer (s : ControlSession τ α) : α → ControlSession τ α := s.attach .dataServer

def attachDataSocket (s : ControlSession τ α) : α → ControlSession τ α := s.attach .dataSocket

def attachControlOutput (s : ControlSession τ α) (output : α) : ControlSession τ α :=
  if s.refuses then { s with closed := output :: s.closed }
  else { s with controlOutput := some output }

/-- `closeQuietly`, then null. -/
def ControlSession.close (s : ControlSession τ α) (f : Field) : ControlSession τ α :=
  { s with
    closed := (s.fields f).toList ++ s.closed
    fields := Function.update s.fields f none }

def closeResourcesLocked (s : ControlSession τ α) (includeData : Bool) : ControlSession τ α :=
  let s := { (s.close .controlSocket).close .controlListener with controlOutput := none }
  if includeData then (s.close .dataSocket).close .dataServer else s

/-- The body of `closeControlResources`. -/
def closeControl (s : ControlSession τ α) : ControlSession τ α :=
  { (s.close .controlSocket).close .controlListener with controlOutput := none }

def ControlSession.setCall (s : ControlSession τ α) (thread : τ) (c : Call) : ControlSession τ α :=
  { s with calls := Function.update s.calls thread c }

/-- One atomic section. `cancel` and `finish` set their flag before they take the lock. -/
def step (s : ControlSession τ α) : Action τ α → Option (ControlSession τ α)
  | .attachControlListener listener => some (attachControlListener s listener)
  | .attachControlSocket socket => some (attachControlSocket s socket)
  | .attachControlOutput output => some (attachControlOutput s output)
  | .attachDataServer server => some (attachDataServer s server)
  | .attachDataSocket socket => some (attachDataSocket s socket)
  | .cancel thread =>
    if s.calls thread = .idle then some { s.setCall thread .cancelling with cancelled := true } else none
  | .cancelReturns thread =>
    if s.calls thread = .cancelling then some (closeResourcesLocked (s.setCall thread .idle) true)
    else none
  | .finish thread =>
    if s.calls thread = .idle then some { s.setCall thread .finishing with completed := true } else none
  | .finishReturns thread =>
    if s.calls thread = .finishing then some (closeResourcesLocked (s.setCall thread .idle) true)
    else none
  | .closeControlResources => some (closeControl s)
  | .complete => some { s with completed := true }

/-- The endpoint that an action attaches. -/
def Action.attached : Action τ α → Option (Field × α)
  | .attachControlListener listener => some (.controlListener, listener)
  | .attachControlSocket socket => some (.controlSocket, socket)
  | .attachDataServer server => some (.dataServer, server)
  | .attachDataSocket socket => some (.dataSocket, socket)
  | _ => none

def Action.returns : Action τ α → Bool
  | .cancelReturns _ | .finishReturns _ => true
  | _ => false

/-- An endpoint is closed or still in its field, where the next closer finds it. -/
def Held (s : ControlSession τ α) (f : Field) (endpoint : α) : Prop :=
  endpoint ∈ s.closed ∨ s.fields f = some endpoint

structure Inv (past : List (Action τ α)) (s : ControlSession τ α) : Prop where
  held : ∀ a ∈ past, ∀ f endpoint, a.attached = some (f, endpoint) → Held s f endpoint
  attached : ∀ f endpoint, s.fields f = some endpoint → ∃ a ∈ past, a.attached = some (f, endpoint)
  calling : ∀ thread, s.calls thread ≠ .idle → s.refuses = true
  empty : past.any Action.returns = true → s.refuses = true ∧ ∀ f, s.fields f = none

/-- Fields are emptied by closing what they hold, and nothing else happens. -/
structure Closes (s t : ControlSession τ α) : Prop where
  held : ∀ f endpoint, Held s f endpoint → Held t f endpoint
  fields : ∀ f, t.fields f = none ∨ t.fields f = s.fields f
  calls : t.calls = s.calls
  refuses : t.refuses = s.refuses

omit [DecidableEq τ] in
theorem Closes.trans {s t u : ControlSession τ α} (h : Closes s t) (h' : Closes t u) : Closes s u where
  held f endpoint hs := h'.held f endpoint (h.held f endpoint hs)
  fields f := by
    obtain hf | hf := h'.fields f
    · exact .inl hf
    · rw [hf]
      exact h.fields f
  calls := h'.calls.trans h.calls
  refuses := h'.refuses.trans h.refuses

omit [DecidableEq τ] in
theorem closes_close (s : ControlSession τ α) (f : Field) : Closes s (s.close f) where
  held g endpoint h := by
    obtain h | h := h
    · exact .inl (List.mem_append_right _ h)
    · by_cases hg : g = f
      · subst hg
        exact .inl (List.mem_append_left _ (by rw [h]; exact List.mem_singleton_self endpoint))
      · exact .inr ((Function.update_of_ne hg _ _).trans h)
  fields g := by
    by_cases hg : g = f
    · subst hg
      exact .inl (Function.update_self ..)
    · exact .inr (Function.update_of_ne hg _ _)
  calls := rfl
  refuses := rfl

omit [DecidableEq τ] in
theorem closes_closeControl (s : ControlSession τ α) : Closes s (closeControl s) := by
  obtain ⟨held, fields, calls, refuses⟩ :=
    (closes_close s .controlSocket).trans (closes_close (s.close .controlSocket) .controlListener)
  exact ⟨held, fields, calls, refuses⟩

omit [DecidableEq τ] in
theorem closes_closeResourcesLocked (s : ControlSession τ α) :
    Closes s (closeResourcesLocked s true) :=
  (closes_closeControl s).trans ((closes_close _ .dataSocket).trans (closes_close _ .dataServer))

omit [DecidableEq τ] in
theorem closeResourcesLocked_fields (s : ControlSession τ α) (f : Field) :
    (closeResourcesLocked s true).fields f = none := by
  cases f <;> rfl

/-- Every attach method is given one endpoint. -/
def OneEach (as : List (Action τ α)) : Prop :=
  ∀ a ∈ as, ∀ b ∈ as, a.attached.map Prod.fst = b.attached.map Prod.fst → a.attached = b.attached

omit [DecidableEq τ] in
theorem OneEach.past {past : List (Action τ α)} {a : Action τ α} (h : OneEach (past ++ [a])) :
    OneEach past :=
  fun b hb c hc => h b (List.mem_append_left _ hb) c (List.mem_append_left _ hc)

variable {past : List (Action τ α)} {s t : ControlSession τ α} {a : Action τ α}

omit [DecidableEq τ] in
theorem any_returns_snoc (hreturns : a.returns = false) :
    (past ++ [a]).any Action.returns = past.any Action.returns := by
  rw [List.any_append, List.any_cons, hreturns]
  simp

omit [DecidableEq τ] in
theorem Inv.attach (h : Inv past s) (hone : OneEach (past ++ [a])) {f : Field} {endpoint : α}
    (ha : a.attached = some (f, endpoint)) (hreturns : a.returns = false) :
    Inv (past ++ [a]) (s.attach f endpoint) := by
  have hlast : a ∈ past ++ [a] := List.mem_append_right _ (List.mem_singleton_self a)
  by_cases hr : s.refuses = true
  · rw [ControlSession.attach, if_pos hr]
    refine ⟨fun b hb g other hother => ?_, fun g other hg => ?_, h.calling, fun hany => ?_⟩
    · obtain hb | hb := List.mem_append.mp hb
      · exact (h.held b hb g other hother).imp_left (List.mem_cons_of_mem _)
      · rw [List.mem_singleton.mp hb, ha] at hother
        cases hother
        exact .inl List.mem_cons_self
    · obtain ⟨b, hb, hatt⟩ := h.attached g other hg
      exact ⟨b, List.mem_append_left _ hb, hatt⟩
    · rw [any_returns_snoc hreturns] at hany
      exact h.empty hany
  · rw [ControlSession.attach, if_neg hr]
    refine ⟨fun b hb g other hother => ?_, fun g other hg => ?_, h.calling, fun hany => ?_⟩
    · by_cases hg : g = f
      · subst hg
        have hsame := hone b hb a hlast (by rw [hother, ha]; rfl)
        rw [hother, ha] at hsame
        cases hsame
        exact .inr (Function.update_self ..)
      · obtain hb | hb := List.mem_append.mp hb
        · exact (h.held b hb g other hother).imp_right (Function.update_of_ne hg _ _).trans
        · rw [List.mem_singleton.mp hb, ha] at hother
          cases hother
          exact absurd rfl hg
    · by_cases hgf : g = f
      · subst hgf
        dsimp only at hg
        rw [Function.update_self] at hg
        cases hg
        exact ⟨a, hlast, ha⟩
      · dsimp only at hg
        rw [Function.update_of_ne hgf] at hg
        obtain ⟨b, hb, hatt⟩ := h.attached g other hg
        exact ⟨b, List.mem_append_left _ hb, hatt⟩
    · rw [any_returns_snoc hreturns] at hany
      exact absurd (h.empty hany).1 hr

omit [DecidableEq τ] in
/-- A step that attaches nothing keeps the endpoints of the state before. -/
theorem Inv.keep (h : Inv past s) (ha : a.attached = none)
    (hheld : ∀ f endpoint, Held s f endpoint → Held t f endpoint)
    (hfields : ∀ f, t.fields f = none ∨ t.fields f = s.fields f)
    (hcalling : ∀ thread, t.calls thread ≠ .idle → t.refuses = true)
    (hempty : (past ++ [a]).any Action.returns = true → t.refuses = true ∧ ∀ f, t.fields f = none) :
    Inv (past ++ [a]) t where
  held b hb f endpoint hatt := by
    obtain hb | hb := List.mem_append.mp hb
    · exact hheld f endpoint (h.held b hb f endpoint hatt)
    · rw [List.mem_singleton.mp hb, ha] at hatt
      cases hatt
  attached f endpoint hf := by
    obtain hnone | hsame := hfields f
    · rw [hnone] at hf
      cases hf
    · obtain ⟨b, hb, hatt⟩ := h.attached f endpoint (hsame ▸ hf)
      exact ⟨b, List.mem_append_left _ hb, hatt⟩
  calling := hcalling
  empty := hempty

omit [DecidableEq τ] in
/-- A flag is set; fields and closed endpoints stay as they are. -/
theorem Inv.flag (h : Inv past s) (ha : a.attached = none) (hreturns : a.returns = false)
    (hfields : t.fields = s.fields) (hclosed : t.closed = s.closed) (hrefuses : t.refuses = true) :
    Inv (past ++ [a]) t := by
  refine h.keep ha (fun f endpoint hs => ?_) (fun f => .inr (by rw [hfields])) (fun _ _ => hrefuses)
    (fun hany => ⟨hrefuses, ?_⟩)
  · rwa [Held, hfields, hclosed]
  · rw [any_returns_snoc hreturns] at hany
    rw [hfields]
    exact (h.empty hany).2

/-- The second half of `cancel` and of `finish`. -/
theorem Inv.close (h : Inv past s) (ha : a.attached = none) {thread : τ}
    (hthread : s.calls thread ≠ .idle) :
    Inv (past ++ [a]) (closeResourcesLocked (s.setCall thread .idle) true) := by
  have hcloses := closes_closeResourcesLocked (s.setCall thread .idle)
  have hrefuses := hcloses.refuses.trans (h.calling thread hthread)
  exact h.keep ha hcloses.held hcloses.fields (fun _ _ => hrefuses)
    (fun _ => ⟨hrefuses, closeResourcesLocked_fields _⟩)

omit [DecidableEq τ] in
theorem refuses_of_cancelled (s : ControlSession τ α) (h : s.cancelled = true) : s.refuses = true := by
  rw [ControlSession.refuses, h]
  rfl

omit [DecidableEq τ] in
theorem refuses_of_completed (s : ControlSession τ α) (h : s.completed = true) : s.refuses = true := by
  rw [ControlSession.refuses, h, Bool.or_true]

theorem Inv.step (h : Inv past s) (hone : OneEach (past ++ [a])) (hstep : step s a = some t) :
    Inv (past ++ [a]) t := by
  cases a with
  | attachControlListener listener =>
    cases hstep
    exact h.attach hone rfl rfl
  | attachControlSocket socket =>
    cases hstep
    exact h.attach hone rfl rfl
  | attachDataServer server =>
    cases hstep
    exact h.attach hone rfl rfl
  | attachDataSocket socket =>
    cases hstep
    exact h.attach hone rfl rfl
  | attachControlOutput output =>
    cases hstep
    rw [attachControlOutput]
    split_ifs with hr
    · exact h.keep rfl (fun f endpoint hs => hs.imp_left (List.mem_cons_of_mem _)) (fun _ => .inr rfl)
        h.calling (fun hany => h.empty ((any_returns_snoc rfl).symm.trans hany))
    · exact h.keep rfl (fun _ _ hs => hs) (fun _ => .inr rfl) h.calling
        (fun hany => h.empty ((any_returns_snoc rfl).symm.trans hany))
  | cancel thread =>
    rw [ControlResources.step] at hstep
    split_ifs at hstep
    cases hstep
    exact h.flag rfl rfl rfl rfl (refuses_of_cancelled _ rfl)
  | cancelReturns thread =>
    rw [ControlResources.step] at hstep
    split_ifs at hstep with hcall
    cases hstep
    exact h.close rfl (by rw [hcall]; decide)
  | finish thread =>
    rw [ControlResources.step] at hstep
    split_ifs at hstep
    cases hstep
    exact h.flag rfl rfl rfl rfl (refuses_of_completed _ rfl)
  | finishReturns thread =>
    rw [ControlResources.step] at hstep
    split_ifs at hstep with hcall
    cases hstep
    exact h.close rfl (by rw [hcall]; decide)
  | closeControlResources =>
    cases hstep
    have hcloses := closes_closeControl s
    refine h.keep rfl hcloses.held hcloses.fields (fun thread hcall => ?_) (fun hany => ?_)
    · exact hcloses.refuses.trans (h.calling thread (hcloses.calls ▸ hcall))
    · obtain ⟨hr, hf⟩ := h.empty ((any_returns_snoc rfl).symm.trans hany)
      exact ⟨hcloses.refuses.trans hr, fun f => (hcloses.fields f).elim id (fun he => he.trans (hf f))⟩
  | complete =>
    cases hstep
    exact h.flag rfl rfl rfl rfl (refuses_of_completed _ rfl)

omit [DecidableEq τ] in
theorem Inv.new : Inv [] (ControlSession.new : ControlSession τ α) where
  held _ hb := absurd hb (List.not_mem_nil)
  attached _ _ hf := nomatch hf
  calling _ hcall := absurd rfl hcall
  empty hany := nomatch hany

/-- Once a call of `cancel` or `finish` has returned, all that was attached before or
after it is closed. -/
theorem endpoints_closed (as : List (Action τ α)) (s : ControlSession τ α)
    (hrun : exec step .new as = some s) (hone : OneEach as)
    (hreturned : ∃ a ∈ as, a.returns = true) :
    ∀ a ∈ as, ∀ f endpoint, a.attached = some (f, endpoint) → endpoint ∈ s.closed := by
  have hinv : OneEach as → Inv as s := exec_invariant (fun past s => OneEach past → Inv past s)
    (fun past s a t h hstep hone => (h hone.past).step hone hstep) (fun _ => Inv.new) hrun
  intro a ha f endpoint hatt
  obtain hclosed | hfield := (hinv hone).held a ha f endpoint hatt
  · exact hclosed
  · rw [((hinv hone).empty (List.any_eq_true.mpr hreturned)).2 f] at hfield
    cases hfield

theorem late_data_socket_closed :
    ∃ s : ControlSession Nat Nat, 2 ∈ s.closed ∧ 1 ∈ s.closed :=
  let as : List (Action Nat Nat) :=
    [.attachControlListener 1, .cancel 0, .cancelReturns 0, .attachDataSocket 2]
  have hclosed := endpoints_closed as _ rfl (by unfold OneEach; decide) (by decide)
  ⟨_, hclosed (.attachDataSocket 2) (by decide) _ _ rfl,
    hclosed (.attachControlListener 1) (by decide) _ _ rfl⟩

end OpenAdb.P2p.ControlResources
