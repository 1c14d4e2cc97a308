import Mathlib.Data.Finset.Dedup
import Mathlib.Data.Finset.Insert
import Mathlib.Data.Finset.Lattice.Lemmas
import Mathlib.Data.List.Pairwise
import Mathlib.Tactic.SplitIfs
import OpenAdb.Lib.PyText
import OpenAdb.Lib.Runs

namespace OpenAdb.Context.Operations

open OpenAdb.Lib.PyText OpenAdb.Lib.Runs

variable {τ : Type}

/-- A `threading.Event`: one that a caller passed, or the one made for a token. -/
inductive CancelEvent
  | passed (n : Nat)
  | own (ref : Nat)
  deriving DecidableEq

/-- The fields of a token that nobody assigns. `ref` is the identity of the object. -/
structure OperationToken where
  ref : Nat
  operationId : Text
  ownerKey : Text
  generation : Option Int
  cancelEvent : CancelEvent
  conflictGroup : Text
  conflictGroups : Finset Text
  deriving DecidableEq

/-- The calls that cancel tokens one by one after they left the lock. -/
inductive Kind
  | keeps | removes | shutdown
  deriving DecidableEq

inductive Call
  | idle
  | flagged (reason : Text)
  | cancelling (kind : Kind) (pending : List OperationToken) (reason : Text)
  deriving DecidableEq

/-- The registry, the assignable fields of all tokens and the calls in progress; `created`,
`finished` and `shutdownReturned` are the history. -/
structure OperationRegistry (τ : Type) where
  tokens : List OperationToken
  shuttingDown : Bool
  isSet : CancelEvent → Bool
  cancellationReason : Nat → Text
  privilegeLease : Nat → Bool
  calls : τ → Call
  created : List OperationToken
  finished : List OperationToken
  shutdownReturned : Bool

namespace OperationRegistry

def new : OperationRegistry τ :=
  ⟨[], false, fun _ => false, fun _ => [], fun _ => false, fun _ => .idle, [], [], false⟩

def cancelled (s : OperationRegistry τ) (token : OperationToken) : Bool := s.isSet token.cancelEvent

structure RegisterArguments where
  ownerKey : Text
  generation : Option Int := none
  conflictGroup : Text := []
  conflictGroups : List Text := []
  cancelEvent : Option Nat := none
  operationId : Option Text := none

inductive RegisterError
  | ownerKeyRequired
  | shuttingDown
  | operationConflict (groups : Finset Text) (ownerKey : Text)
  | duplicateOperationId (operationId : Text)

def cancelledWord : Text := ['c', 'a', 'n', 'c', 'e', 'l', 'l', 'e', 'd']

def orElse (s default : Text) : Text := if s.isEmpty then default else s

variable (u : UnicodeData)

def normalizedGroups (a : RegisterArguments) : Finset Text :=
  let groups := ((a.conflictGroups.map (strip u)).filter (fun g => !g.isEmpty)).toFinset
  let group := strip u a.conflictGroup
  if group.isEmpty then groups else insert group groups

/-- The token that `register` makes; `uuid` is the id that it draws if none is given. -/
def newToken (s : OperationRegistry τ) (a : RegisterArguments) (uuid : Text) : OperationToken where
  ref := s.created.length
  operationId := orElse (a.operationId.getD []) uuid
  ownerKey := strip u a.ownerKey
  generation := a.generation
  cancelEvent := match a.cancelEvent with
    | some n => .passed n
    | none => .own s.created.length
  conflictGroup := strip u a.conflictGroup
  conflictGroups := normalizedGroups u a

def register (s : OperationRegistry τ) (a : RegisterArguments) (uuid : Text) :
    Except RegisterError (OperationRegistry τ) :=
  let token := s.newToken u a uuid
  if token.ownerKey.isEmpty then .error .ownerKeyRequired
  else if s.shuttingDown then .error .shuttingDown
  else
    match s.tokens.find? (fun t => (t.conflictGroups ∩ token.conflictGroups).Nonempty) with
    | some conflict =>
      .error (.operationConflict (conflict.conflictGroups ∩ token.conflictGroups) conflict.ownerKey)
    | none =>
      if s.tokens.any (fun t => t.operationId = token.operationId) then
        .error (.duplicateOperationId token.operationId)
      else .ok { s with tokens := s.tokens ++ [token], created := s.created ++ [token] }

def get (s : OperationRegistry τ) (operationId : Text) : Option OperationToken :=
  s.tokens.find? (fun t => t.operationId = operationId)

/-- `is` compares the objects. -/
def contains (s : OperationRegistry τ) (token : OperationToken) : Bool :=
  (s.get token.operationId).any (fun t => t.ref = token.ref)

def finish (s : OperationRegistry τ) (token : OperationToken) : OperationRegistry τ :=
  if s.contains token then
    { s with
      tokens := s.tokens.filter (fun t => t.operationId ≠ token.operationId)
      finished := token :: s.finished }
  else s

/-- `OperationToken.cancel`, under the lock of the token. -/
def cancel (s : OperationRegistry τ) (token : OperationToken) (reason : Text) : OperationRegistry τ :=
  let firstRequest := !s.cancelled token
  { s with
    cancellationReason :=
      if firstRequest || (s.cancellationReason token.ref).isEmpty then
        Function.update s.cancellationReason token.ref (orElse reason cancelledWord)
      else s.cancellationReason
    isSet := Function.update s.isSet token.cancelEvent true }

def setCall [DecidableEq τ] (s : OperationRegistry τ) (thread : τ) (c : Call) : OperationRegistry τ :=
  { s with calls := Function.update s.calls thread c }

/-- The locked part of `cancel_all`. -/
def takeAll [DecidableEq τ] (s : OperationRegistry τ) (thread : τ) (kind : Kind) (reason : Text) :
    OperationRegistry τ :=
  let s := s.setCall thread (.cancelling kind s.tokens reason)
  if kind = .keeps then s else { s with tokens := [] }

def takeWhere [DecidableEq τ] (s : OperationRegistry τ) (thread : τ) (select : OperationToken → Bool)
    (reason : Text) : OperationRegistry τ :=
  s.setCall thread (.cancelling .keeps (s.tokens.filter select) reason)

inductive Action (τ : Type)
  | register (a : RegisterArguments) (uuid : Text)
  | setPrivilegeLease (token : OperationToken) (lease : Bool)
  | setEvent (e : CancelEvent)
  | finish (token : OperationToken)
  | cancel (token : OperationToken) (reason : Text)
  | cancelOwner (thread : τ) (ownerKey reason : Text)
  | cancelPrivilegeOperations (thread : τ) (reason : Text)
  | cancelStale (thread : τ) (currentGeneration : Int) (reason : Text)
  | cancelAll (thread : τ) (reason : Text) (remove : Bool)
  | shutdown (thread : τ) (reason : Text)
  | shutdownTakes (thread : τ)
  | cancelNext (thread : τ)
  | returns (thread : τ)

/-- One lock section. A call of a thread begins when the thread is idle and ends with
`returns`; a token argument is an object that `register` has returned. -/
def step [DecidableEq τ] (s : OperationRegistry τ) : Action τ → Option (OperationRegistry τ)
  | .register a uuid =>
    match s.register u a uuid with
    | .ok t => some t
    | .error _ => some s
  | .setPrivilegeLease token lease =>
    some { s with privilegeLease := Function.update s.privilegeLease token.ref lease }
  | .setEvent e => some { s with isSet := Function.update s.isSet e true }
  | .finish token => if token ∈ s.created then some (s.finish token) else none
  | .cancel token reason => if token ∈ s.created then some (s.cancel token reason) else none
  | .cancelOwner thread ownerKey reason =>
    if s.calls thread = .idle then
      some (s.takeWhere thread (fun t => t.ownerKey = strip u ownerKey) reason)
    else none
  | .cancelPrivilegeOperations thread reason =>
    if s.calls thread = .idle then some (s.takeWhere thread (fun t => s.privilegeLease t.ref) reason)
    else none
  | .cancelStale thread currentGeneration reason =>
    if s.calls thread = .idle then
      some (s.takeWhere thread (fun t => t.generation.any (· < currentGeneration)) reason)
    else none
  | .cancelAll thread reason remove =>
    if s.calls thread = .idle then some (s.takeAll thread (if remove then .removes else .keeps) reason)
    else none
  | .shutdown thread reason =>
    if s.calls thread = .idle then some { s.setCall thread (.flagged reason) with shuttingDown := true }
    else none
  | .shutdownTakes thread =>
    match s.calls thread with
    | .flagged reason => some (s.takeAll thread .shutdown reason)
    | _ => none
  | .cancelNext thread =>
    match s.calls thread with
    | .cancelling kind (token :: pending) reason =>
      some ((s.setCall thread (.cancelling kind pending reason)).cancel token reason)
    | _ => none
  | .returns thread =>
    match s.calls thread with
    | .cancelling kind [] _ =>
      some { s.setCall thread .idle with shutdownReturned := s.shutdownReturned || kind = .shutdown }
    | _ => none

/-- A call that took tokens out of the registry has still to cancel this one. -/
def BeingCancelled (s : OperationRegistry τ) (token : OperationToken) : Prop :=
  ∃ thread kind pending reason,
    s.calls thread = .cancelling kind pending reason ∧ kind ≠ .keeps ∧ token ∈ pending

def InShutdown (s : OperationRegistry τ) : Prop :=
  ∃ thread pending reason, s.calls thread = .cancelling .shutdown pending reason

def Apart (a b : OperationToken) : Prop :=
  a.operationId ≠ b.operationId ∧ Disjoint a.conflictGroups b.conflictGroups

instance : Std.Symm Apart := ⟨fun _ _ h => ⟨h.1.symm, h.2.symm⟩⟩

/-- The tokens and the objects. -/
structure Registered (s : OperationRegistry τ) : Prop where
  refs : ∀ t ∈ s.created, t.ref < s.created.length
  injective : ∀ a ∈ s.created, ∀ b ∈ s.created, a.ref = b.ref → a = b
  created : ∀ t ∈ s.tokens, t ∈ s.created
  apart : s.tokens.Pairwise Apart

structure Inv (s : OperationRegistry τ) : Prop where
  registered : Registered s
  reasons : ∀ ref, s.cancellationReason ref ≠ [] → ∃ t ∈ s.created, t.ref = ref ∧ s.cancelled t = true
  pending : ∀ thread kind pending reason, s.calls thread = .cancelling kind pending reason →
    ∀ t ∈ pending, t ∈ s.created
  traced : ∀ t ∈ s.created,
    t ∈ s.tokens ∨ t ∈ s.finished ∨ s.cancelled t = true ∨ s.BeingCancelled t
  flagged : ∀ thread reason, s.calls thread = .flagged reason → s.shuttingDown = true
  emptied : s.InShutdown ∨ s.shutdownReturned = true → s.shuttingDown = true ∧ s.tokens = []

/-- What no step takes back. -/
structure Later (s t : OperationRegistry τ) : Prop where
  isSet : ∀ e, s.isSet e = true → t.isSet e = true
  reason : ∀ ref, s.cancellationReason ref ≠ [] → t.cancellationReason ref = s.cancellationReason ref
  created : ∀ token ∈ s.created, token ∈ t.created
  shutdownReturned : s.shutdownReturned = true → t.shutdownReturned = true

variable {u : UnicodeData} {s t : OperationRegistry τ}

theorem Later.refl (s : OperationRegistry τ) : Later s s :=
  ⟨fun _ => id, fun _ _ => rfl, fun _ => id, id⟩

theorem Later.trans {r : OperationRegistry τ} (h : Later s t) (h' : Later t r) : Later s r where
  isSet e he := h'.isSet e (h.isSet e he)
  reason ref hs := by
    have ht := h.reason ref hs
    exact (h'.reason ref (ht ▸ hs)).trans ht
  created token hs := h'.created token (h.created token hs)
  shutdownReturned hs := h'.shutdownReturned (h.shutdownReturned hs)

theorem Inv.new : Inv (OperationRegistry.new : OperationRegistry τ) where
  registered := ⟨nofun, nofun, nofun, .nil⟩
  reasons _ h := absurd rfl h
  pending _ _ _ _ h := nomatch h
  traced _ h := nomatch h
  flagged _ _ h := nomatch h
  emptied h := by
    obtain ⟨_, _, _, h⟩ | h := h
    · cases h
    · cases h

theorem Registered.fresh (h : Registered s) {token : OperationToken} (hcreated : token ∈ s.created) :
    token.ref ≠ s.created.length :=
  Nat.ne_of_lt (h.refs token hcreated)

theorem Registered.register (h : Registered s) {token : OperationToken}
    (href : token.ref = s.created.length)
    (hnone : s.tokens.find? (fun t => (t.conflictGroups ∩ token.conflictGroups).Nonempty) = none)
    (hid : ¬s.tokens.any (fun t => t.operationId = token.operationId) = true) :
    Registered { s with tokens := s.tokens ++ [token], created := s.created ++ [token] } where
  refs t ht := by
    rw [List.length_append, List.length_singleton]
    obtain ht | ht := List.mem_append.mp ht
    · exact Nat.lt_succ_of_lt (h.refs t ht)
    · rw [List.mem_singleton.mp ht, href]
      exact Nat.lt_succ_self _
  injective a ha b hb hab := by
    obtain ha | ha := List.mem_append.mp ha
    · obtain hb | hb := List.mem_append.mp hb
      · exact h.injective a ha b hb hab
      · rw [List.mem_singleton.mp hb, href] at hab
        exact absurd hab (h.fresh ha)
    · obtain hb | hb := List.mem_append.mp hb
      · rw [List.mem_singleton.mp ha, href] at hab
        exact absurd hab.symm (h.fresh hb)
      · rw [List.mem_singleton.mp ha, List.mem_singleton.mp hb]
  created t ht := by
    obtain ht | ht := List.mem_append.mp ht
    · exact List.mem_append_left _ (h.created t ht)
    · exact List.mem_append_right _ ht
  apart := by
    apply List.pairwise_append.mpr
    refine ⟨h.apart, List.pairwise_singleton _ _, fun a ha b hb => ?_⟩
    rw [List.mem_singleton.mp hb]
    constructor
    · exact fun heq => hid (List.any_eq_true.mpr ⟨a, ha, decide_eq_true heq⟩)
    · have hempty := List.find?_eq_none.mp hnone a ha
      rw [decide_eq_true_eq, Finset.not_nonempty_iff_eq_empty] at hempty
      exact Finset.disjoint_iff_inter_eq_empty.mpr hempty

theorem Inv.register (h : Inv s) {a : RegisterArguments} {uuid : Text}
    (hregister : s.register u a uuid = .ok t) : Inv t ∧ Later s t := by
  rw [OperationRegistry.register] at hregister
  split_ifs at hregister with howner hshutting hid
  · split at hregister <;> cases hregister
  · split at hregister
    · cases hregister
    rename_i hnone
    cases hregister
    refine ⟨⟨h.registered.register rfl hnone hid, fun ref href => ?_, fun thread kind pending reason hc t ht => ?_,
      fun t ht => ?_, h.flagged, fun hs => ?_⟩,
      fun _ => id, fun _ _ => rfl, fun _ => List.mem_append_left _, id⟩
    · obtain ⟨t, ht, hreason⟩ := h.reasons ref href
      exact ⟨t, List.mem_append_left _ ht, hreason⟩
    · exact List.mem_append_left _ (h.pending thread kind pending reason hc t ht)
    · obtain ht | ht := List.mem_append.mp ht
      · exact (h.traced t ht).imp_left (List.mem_append_left _)
      · exact .inl (List.mem_append_right _ ht)
    · exact absurd (h.emptied hs).1 hshutting

theorem Inv.setPrivilegeLease (h : Inv s) (lease : Nat → Bool) :
    Inv { s with privilegeLease := lease } ∧ Later s { s with privilegeLease := lease } :=
  ⟨⟨⟨h.registered.refs, h.registered.injective, h.registered.created, h.registered.apart⟩, h.reasons,
    h.pending, h.traced, h.flagged, h.emptied⟩, fun _ => id, fun _ _ => rfl, fun _ => id, id⟩

/-- Events are set, and a reason is written where there is none or by the token that was cancelled. -/
theorem Inv.signal (h : Inv s) {isSet : CancelEvent → Bool} {cancellationReason : Nat → Text}
    (hset : ∀ e, s.isSet e = true → isSet e = true)
    (hreason : ∀ ref, cancellationReason ref = s.cancellationReason ref ∨
      s.cancellationReason ref = [] ∧ ∃ t ∈ s.created, t.ref = ref ∧ isSet t.cancelEvent = true) :
    Inv { s with isSet, cancellationReason } ∧ Later s { s with isSet, cancellationReason } := by
  refine ⟨⟨⟨h.registered.refs, h.registered.injective, h.registered.created, h.registered.apart⟩,
    fun ref href => ?_, h.pending, fun t ht => ?_, h.flagged, h.emptied⟩, hset, fun ref href => ?_,
    fun _ => id, id⟩
  · obtain heq | ⟨_, hcancelled⟩ := hreason ref
    · obtain ⟨t, ht, htref, hcancelled⟩ := h.reasons ref (heq ▸ href)
      exact ⟨t, ht, htref, hset _ hcancelled⟩
    · exact hcancelled
  · obtain ht | ht | ht | ht := h.traced t ht
    · exact .inl ht
    · exact .inr (.inl ht)
    · exact .inr (.inr (.inl (hset _ ht)))
    · exact .inr (.inr (.inr ht))
  · obtain heq | ⟨hempty, _⟩ := hreason ref
    · exact heq
    · exact absurd hempty href

theorem Inv.setEvent (h : Inv s) (e : CancelEvent) :
    Inv { s with isSet := Function.update s.isSet e true } ∧
      Later s { s with isSet := Function.update s.isSet e true } :=
  h.signal (fun e' he => (Function.update_apply s.isSet e true e').trans (by split_ifs <;> trivial))
    (fun _ => .inl rfl)

theorem Inv.cancel (h : Inv s) {token : OperationToken} (hcreated : token ∈ s.created) (reason : Text) :
    Inv (s.cancel token reason) ∧ Later s (s.cancel token reason) := by
  apply h.signal
  · intro e he
    rw [Function.update_apply]
    split_ifs
    · rfl
    · exact he
  · intro ref
    by_cases hwrites : (!s.cancelled token || (s.cancellationReason token.ref).isEmpty) = true
    · rw [if_pos hwrites]
      by_cases href : ref = token.ref
      · subst href
        refine .inr ⟨?_, token, hcreated, rfl, Function.update_self ..⟩
        by_contra hne
        obtain ⟨t, ht, htref, hcancelled⟩ := h.reasons token.ref hne
        rw [h.registered.injective t ht token hcreated htref] at hcancelled
        rw [hcancelled, Bool.not_true, Bool.false_or, List.isEmpty_iff] at hwrites
        exact hne hwrites
      · exact .inl (Function.update_of_ne href ..)
    · rw [if_neg hwrites]
      exact .inl rfl

theorem Registered.get (h : Registered s) {token : OperationToken} (hcreated : token ∈ s.created)
    (hcontains : s.contains token = true) : token ∈ s.tokens := by
  rw [contains, Option.any_eq_true] at hcontains
  obtain ⟨t, ht, href⟩ := hcontains
  have hmem := List.mem_of_find?_eq_some ht
  rwa [h.injective t (h.created t hmem) token hcreated (of_decide_eq_true href)] at hmem

theorem Registered.eq_of_id (h : Registered s) {a b : OperationToken} (ha : a ∈ s.tokens)
    (hb : b ∈ s.tokens) (hid : a.operationId = b.operationId) : a = b := by
  by_contra hne
  exact (h.apart.forall ha hb hne).1 hid

theorem Registered.contains (h : Registered s) {token : OperationToken} (hmem : token ∈ s.tokens) :
    s.contains token = true := by
  cases hget : s.get token.operationId with
  | none => exact absurd (decide_eq_true rfl) (List.find?_eq_none.mp hget token hmem)
  | some t =>
    have hfind : s.tokens.find? (fun t => t.operationId = token.operationId) = some t := hget
    have hid : t.operationId = token.operationId := by simpa using List.find?_some hfind
    rw [OperationRegistry.contains, hget, h.eq_of_id (List.mem_of_find?_eq_some hfind) hmem hid]
    exact decide_eq_true rfl

theorem Registered.finish_tokens (h : Registered s) {token : OperationToken}
    (hcreated : token ∈ s.created) : (s.finish token).tokens = s.tokens.filter (· ≠ token) := by
  rw [OperationRegistry.finish]
  split_ifs with hcontains
  · have hmem := h.get hcreated hcontains
    apply List.filter_congr
    intro t ht
    exact decide_eq_decide.mpr (not_congr ⟨h.eq_of_id ht hmem, congrArg _⟩)
  · symm
    apply List.filter_eq_self.mpr
    intro t ht
    apply decide_eq_true
    intro heq
    exact hcontains (h.contains (heq ▸ ht))

theorem Inv.finish (h : Inv s) {token : OperationToken} (hcreated : token ∈ s.created) :
    Inv (s.finish token) ∧ Later s (s.finish token) := by
  have htokens := h.registered.finish_tokens hcreated
  rw [OperationRegistry.finish] at htokens ⊢
  split_ifs at htokens ⊢ with hcontains
  · dsimp only at htokens
    rw [htokens]
    refine ⟨⟨⟨h.registered.refs, h.registered.injective,
      fun t ht => h.registered.created t (List.mem_of_mem_filter ht), h.registered.apart.filter _⟩,
      h.reasons, h.pending, fun t ht => ?_, h.flagged, fun hs => ?_⟩,
      fun _ => id, fun _ _ => rfl, fun _ => id, id⟩
    · obtain hmem | hfinished | hrest := h.traced t ht
      · by_cases heq : t = token
        · exact .inr (.inl (heq ▸ List.mem_cons_self))
        · exact .inl (List.mem_filter.mpr ⟨hmem, decide_eq_true heq⟩)
      · exact .inr (.inl (List.mem_cons_of_mem _ hfinished))
      · exact .inr (.inr hrest)
    · obtain ⟨hshutting, hempty⟩ := h.emptied hs
      exact ⟨hshutting, by rw [hempty]; rfl⟩
  · exact ⟨h, .refl s⟩

variable [DecidableEq τ]

/-- A thread goes on to another call; what it had still to cancel is cancelled or goes with it. -/
theorem Inv.setCall (h : Inv s) (thread : τ) (c : Call)
    (hpending : ∀ kind pending reason, c = .cancelling kind pending reason → ∀ t ∈ pending, t ∈ s.created)
    (htraced : ∀ kind pending reason, s.calls thread = .cancelling kind pending reason → kind ≠ .keeps →
      ∀ t ∈ pending, s.cancelled t = true ∨
        ∃ kind pending reason, c = .cancelling kind pending reason ∧ kind ≠ .keeps ∧ t ∈ pending)
    (hflagged : ∀ reason, c = .flagged reason → s.shuttingDown = true)
    (hemptied : ∀ pending reason, c = .cancelling .shutdown pending reason →
      s.shuttingDown = true ∧ s.tokens = []) :
    Inv (s.setCall thread c) ∧ Later s (s.setCall thread c) := by
  have hself : (s.setCall thread c).calls thread = c := Function.update_self ..
  have hother (other : τ) (hne : other ≠ thread) : (s.setCall thread c).calls other = s.calls other :=
    Function.update_of_ne hne ..
  refine ⟨⟨⟨h.registered.refs, h.registered.injective, h.registered.created, h.registered.apart⟩, h.reasons,
    fun other kind pending reason hc => ?_, fun t ht => ?_, fun other reason hc => ?_, fun hs => ?_⟩,
    fun _ => id, fun _ _ => rfl, fun _ => id, id⟩
  · by_cases hne : other = thread
    · subst hne
      exact hpending kind pending reason (hself.symm.trans hc)
    · exact h.pending other kind pending reason ((hother other hne).symm.trans hc)
  · obtain hmem | hfinished | hcancelled | ⟨other, kind, pending, reason, hc, hkind, hpend⟩ := h.traced t ht
    · exact .inl hmem
    · exact .inr (.inl hfinished)
    · exact .inr (.inr (.inl hcancelled))
    · by_cases hne : other = thread
      · subst hne
        obtain hcancelled | ⟨kind', pending', reason', rfl, hkind', hpend'⟩ :=
          htraced kind pending reason hc hkind t hpend
        · exact .inr (.inr (.inl hcancelled))
        · exact .inr (.inr (.inr ⟨other, kind', pending', reason', hself, hkind', hpend'⟩))
      · exact .inr (.inr (.inr ⟨other, kind, pending, reason, (hother other hne).trans hc, hkind, hpend⟩))
  · by_cases hne : other = thread
    · subst hne
      exact hflagged reason (hself.symm.trans hc)
    · exact h.flagged other reason ((hother other hne).symm.trans hc)
  · obtain ⟨other, pending, reason, hc⟩ | hreturned := hs
    · by_cases hne : other = thread
      · subst hne
        exact hemptied pending reason (hself.symm.trans hc)
      · exact h.emptied (.inl ⟨other, pending, reason, (hother other hne).symm.trans hc⟩)
    · exact h.emptied (.inr hreturned)

omit [DecidableEq τ] in
theorem not_cancelling {thread : τ} {c : Call} (hcall : s.calls thread = c)
    (hc : ∀ kind pending reason, c ≠ .cancelling kind pending reason) :
    ∀ kind pending reason, s.calls thread ≠ .cancelling kind pending reason := by
  rwa [hcall]

/-- A thread that was cancelling nothing begins to cancel some registered tokens. -/
theorem Inv.take (h : Inv s) {thread : τ} (hcall : ∀ kind pending reason,
      s.calls thread ≠ .cancelling kind pending reason) {pending : List OperationToken}
    (hpending : ∀ t ∈ pending, t ∈ s.tokens) (reason : Text) :
    Inv (s.setCall thread (.cancelling .keeps pending reason)) ∧
      Later s (s.setCall thread (.cancelling .keeps pending reason)) := by
  apply h.setCall
  · intro kind pending' reason' hc t ht
    cases hc
    exact h.registered.created t (hpending t ht)
  · exact fun kind pending reason hc => absurd hc (hcall kind pending reason)
  · exact fun _ hc => nomatch hc
  · exact fun _ _ hc => nomatch hc

/-- The registry is emptied by a thread that will cancel all that it takes. -/
theorem Inv.takeAll (h : Inv s) {thread : τ} (hcall : ∀ kind pending reason,
      s.calls thread ≠ .cancelling kind pending reason) {kind : Kind}
    (hshutdown : kind = .shutdown → s.shuttingDown = true) (reason : Text) :
    Inv (s.takeAll thread kind reason) ∧ Later s (s.takeAll thread kind reason) := by
  rw [OperationRegistry.takeAll]
  by_cases hkind : kind = .keeps
  · subst hkind
    exact h.take hcall (fun _ => id) reason
  · rw [if_neg hkind]
    have hself : (s.setCall thread (.cancelling kind s.tokens reason)).calls thread =
        .cancelling kind s.tokens reason := Function.update_self ..
    have hother (other : τ) (hne : other ≠ thread) :
        (s.setCall thread (.cancelling kind s.tokens reason)).calls other = s.calls other :=
      Function.update_of_ne hne ..
    refine ⟨⟨⟨h.registered.refs, h.registered.injective, nofun, .nil⟩, h.reasons,
      fun other kind' pending reason' hc => ?_, fun t ht => ?_, fun other reason' hc => ?_, fun hs => ?_⟩,
      fun _ => id, fun _ _ => rfl, fun _ => id, id⟩
    · by_cases hne : other = thread
      · subst hne
        cases hself.symm.trans hc
        exact h.registered.created
      · exact h.pending other kind' pending reason' ((hother other hne).symm.trans hc)
    · obtain hmem | hfinished | hcancelled | ⟨other, kind', pending, reason', hc, hkind', hpend⟩ := h.traced t ht
      · exact .inr (.inr (.inr ⟨thread, kind, s.tokens, reason, hself, hkind, hmem⟩))
      · exact .inr (.inl hfinished)
      · exact .inr (.inr (.inl hcancelled))
      · have hne : other ≠ thread := fun heq => hcall kind' pending reason' (heq ▸ hc)
        exact .inr (.inr (.inr ⟨other, kind', pending, reason', (hother other hne).trans hc, hkind', hpend⟩))
    · by_cases hne : other = thread
      · subst hne
        cases hself.symm.trans hc
      · exact h.flagged other reason' ((hother other hne).symm.trans hc)
    · obtain ⟨other, pending, reason', hc⟩ | hreturned := hs
      · by_cases hne : other = thread
        · subst hne
          cases hself.symm.trans hc
          exact ⟨hshutdown rfl, rfl⟩
        · exact ⟨(h.emptied (.inl ⟨other, pending, reason', (hother other hne).symm.trans hc⟩)).1, rfl⟩
      · exact ⟨(h.emptied (.inr hreturned)).1, rfl⟩

/-- The first section of `shutdown`. -/
theorem Inv.shutdown (h : Inv s) {thread : τ} (hcall : ∀ kind pending reason,
      s.calls thread ≠ .cancelling kind pending reason) (reason : Text) :
    Inv { s.setCall thread (.flagged reason) with shuttingDown := true } ∧
      Later s { s.setCall thread (.flagged reason) with shuttingDown := true } := by
  have hflag : Inv { s with shuttingDown := true } :=
    ⟨⟨h.registered.refs, h.registered.injective, h.registered.created, h.registered.apart⟩, h.reasons,
      h.pending, h.traced, fun _ _ _ => rfl, fun hs => ⟨rfl, (h.emptied hs).2⟩⟩
  obtain ⟨hinv, hlater⟩ := hflag.setCall thread (.flagged reason) (fun _ _ _ hc => nomatch hc)
    (fun kind pending reason hc => absurd hc (hcall kind pending reason)) (fun _ _ => rfl)
    (fun _ _ hc => nomatch hc)
  exact ⟨hinv, hlater.isSet, hlater.reason, hlater.created, hlater.shutdownReturned⟩

theorem Inv.cancelNext (h : Inv s) {thread : τ} {kind : Kind} {token : OperationToken}
    {pending : List OperationToken} {reason : Text}
    (hcall : s.calls thread = .cancelling kind (token :: pending) reason) :
    Inv ((s.setCall thread (.cancelling kind pending reason)).cancel token reason) ∧
      Later s ((s.setCall thread (.cancelling kind pending reason)).cancel token reason) := by
  have hmem := h.pending thread kind (token :: pending) reason hcall
  obtain ⟨hinv, hlater⟩ := h.cancel (hmem token List.mem_cons_self) reason
  have hset := hinv.setCall thread (.cancelling kind pending reason)
    (fun kind' pending' reason' hc t ht => ?_) (fun kind' pending' reason' hc hkind t ht => ?_)
    (fun _ hc => nomatch hc) (fun pending' reason' hc => ?_)
  · exact ⟨hset.1, hlater.trans hset.2⟩
  · cases hc
    exact hmem t (List.mem_cons_of_mem _ ht)
  · cases hcall.symm.trans hc
    obtain rfl | ht := List.mem_cons.mp ht
    · exact .inl (Function.update_self ..)
    · exact .inr ⟨kind, pending, reason, rfl, hkind, ht⟩
  · cases hc
    exact h.emptied (.inl ⟨thread, _, _, hcall⟩)

theorem Inv.returns (h : Inv s) {thread : τ} {kind : Kind} {reason : Text}
    (hcall : s.calls thread = .cancelling kind [] reason) :
    Inv { s.setCall thread .idle with shutdownReturned := s.shutdownReturned || kind = .shutdown } ∧
      Later s { s.setCall thread .idle with shutdownReturned := s.shutdownReturned || kind = .shutdown } := by
  obtain ⟨⟨hregistered, hreasons, hpending, htraced, hflagged, hemptied⟩, hlater⟩ :=
    h.setCall thread .idle (fun _ _ _ hc => nomatch hc)
      (fun kind' pending' reason' hc _ t ht => by cases hcall.symm.trans hc; cases ht)
      (fun _ hc => nomatch hc) (fun _ _ hc => nomatch hc)
  refine ⟨⟨⟨hregistered.refs, hregistered.injective, hregistered.created, hregistered.apart⟩, hreasons,
    hpending, htraced, hflagged, fun hs => ?_⟩, hlater.isSet, hlater.reason, hlater.created, fun hs => ?_⟩
  · obtain hin | hreturned := hs
    · exact hemptied (.inl hin)
    · rw [Bool.or_eq_true, decide_eq_true_eq] at hreturned
      obtain hreturned | rfl := hreturned
      · exact hemptied (.inr hreturned)
      · exact h.emptied (.inl ⟨thread, [], reason, hcall⟩)
  · exact Bool.or_eq_true .. |>.mpr (.inl hs)

theorem Inv.step (h : Inv s) {a : Action τ} (hstep : step u s a = some t) : Inv t ∧ Later s t := by
  cases a with
  | register a uuid =>
    rw [OperationRegistry.step] at hstep
    split at hstep
    · rename_i hregister
      cases hstep
      exact h.register hregister
    · cases hstep
      exact ⟨h, .refl s⟩
  | setPrivilegeLease token lease =>
    cases hstep
    exact h.setPrivilegeLease _
  | setEvent e =>
    cases hstep
    exact h.setEvent e
  | finish token =>
    rw [OperationRegistry.step] at hstep
    split_ifs at hstep with hcreated
    cases hstep
    exact h.finish hcreated
  | cancel token reason =>
    rw [OperationRegistry.step] at hstep
    split_ifs at hstep with hcreated
    cases hstep
    exact h.cancel hcreated reason
  | cancelOwner thread ownerKey reason =>
    rw [OperationRegistry.step] at hstep
    split_ifs at hstep with hcall
    cases hstep
    exact h.take (not_cancelling hcall nofun) (fun _ => List.mem_of_mem_filter) reason
  | cancelPrivilegeOperations thread reason =>
    rw [OperationRegistry.step] at hstep
    split_ifs at hstep with hcall
    cases hstep
    exact h.take (not_cancelling hcall nofun) (fun _ => List.mem_of_mem_filter) reason
  | cancelStale thread currentGeneration reason =>
    rw [OperationRegistry.step] at hstep
    split_ifs at hstep with hcall
    cases hstep
    exact h.take (not_cancelling hcall nofun) (fun _ => List.mem_of_mem_filter) reason
  | cancelAll thread reason remove =>
    rw [OperationRegistry.step] at hstep
    split_ifs at hstep with hcall hremove
    · cases hstep
      have hkind : Kind.removes = .shutdown → s.shuttingDown = true := nofun
      exact h.takeAll (not_cancelling hcall nofun) hkind reason
    · cases hstep
      have hkind : Kind.keeps = .shutdown → s.shuttingDown = true := nofun
      exact h.takeAll (not_cancelling hcall nofun) hkind reason
  | shutdown thread reason =>
    rw [OperationRegistry.step] at hstep
    split_ifs at hstep with hcall
    cases hstep
    exact h.shutdown (not_cancelling hcall nofun) reason
  | shutdownTakes thread =>
    rw [OperationRegistry.step] at hstep
    split at hstep
    · rename_i hcall
      cases hstep
      exact h.takeAll (not_cancelling hcall nofun) (fun _ => h.flagged thread _ hcall) _
    · cases hstep
  | cancelNext thread =>
    rw [OperationRegistry.step] at hstep
    split at hstep
    · rename_i hcall
      cases hstep
      exact h.cancelNext hcall
    · cases hstep
  | returns thread =>
    rw [OperationRegistry.step] at hstep
    split at hstep
    · rename_i hcall
      cases hstep
      exact h.returns hcall
    · cases hstep

omit [DecidableEq τ] in
theorem register_ok {a : RegisterArguments} {id : Text} (h : s.register u a id = .ok t) :
    s.shuttingDown = false ∧
      t = { s with tokens := s.tokens ++ [s.newToken u a id], created := s.created ++ [s.newToken u a id] } := by
  rw [OperationRegistry.register] at h
  split_ifs at h with howner hshutting hid
  · split at h <;> cases h
  · split at h
    · cases h
    · cases h
      exact ⟨Bool.eq_false_iff.mpr hshutting, rfl⟩

theorem takeAll_shuttingDown (s : OperationRegistry τ) (thread : τ) (kind : Kind) (reason : Text) :
    (s.takeAll thread kind reason).shuttingDown = s.shuttingDown := by
  rw [OperationRegistry.takeAll]
  split_ifs <;> rfl

/-- The registry stays shut down. -/
theorem step_shuttingDown {a : Action τ} (hstep : step u s a = some t) (h : s.shuttingDown = true) :
    t.shuttingDown = true := by
  cases a with
  | register a uuid =>
    rw [OperationRegistry.step] at hstep
    split at hstep
    · rename_i hregister
      exact absurd ((register_ok hregister).1.symm.trans h) Bool.false_ne_true
    · cases hstep
      exact h
  | setPrivilegeLease token lease =>
    cases hstep
    exact h
  | setEvent e =>
    cases hstep
    exact h
  | finish token =>
    rw [OperationRegistry.step] at hstep
    split_ifs at hstep
    cases hstep
    rw [OperationRegistry.finish]
    split_ifs <;> exact h
  | cancel token reason =>
    rw [OperationRegistry.step] at hstep
    split_ifs at hstep
    cases hstep
    exact h
  | cancelOwner thread ownerKey reason =>
    rw [OperationRegistry.step] at hstep
    split_ifs at hstep
    cases hstep
    exact h
  | cancelPrivilegeOperations thread reason =>
    rw [OperationRegistry.step] at hstep
    split_ifs at hstep
    cases hstep
    exact h
  | cancelStale thread currentGeneration reason =>
    rw [OperationRegistry.step] at hstep
    split_ifs at hstep
    cases hstep
    exact h
  | cancelAll thread reason remove =>
    rw [OperationRegistry.step] at hstep
    split_ifs at hstep <;> cases hstep <;> exact (takeAll_shuttingDown s thread _ reason).trans h
  | shutdown thread reason =>
    rw [OperationRegistry.step] at hstep
    split_ifs at hstep
    cases hstep
    rfl
  | shutdownTakes thread =>
    rw [OperationRegistry.step] at hstep
    split at hstep
    · cases hstep
      exact (takeAll_shuttingDown s thread _ _).trans h
    · cases hstep
  | cancelNext thread =>
    rw [OperationRegistry.step] at hstep
    split at hstep
    · cases hstep
      exact h
    · cases hstep
  | returns thread =>
    rw [OperationRegistry.step] at hstep
    split at hstep
    · cases hstep
      exact h
    · cases hstep

theorem Inv.of_exec (h : Inv s) {as : List (Action τ)} (hrun : exec (OperationRegistry.step u) s as = some t) :
    Inv t ∧ Later s t :=
  exec_relation (fun s t => Inv s → Inv t ∧ Later s t) (fun s h => ⟨h, .refl s⟩)
    (fun _ _ _ h h' hs => ⟨(h' (h hs).1).1, (h hs).2.trans (h' (h hs).1).2⟩)
    (fun _ _ _ hstep hs => hs.step hstep) hrun h

/-- What the registry promises about a state and every later state. -/
structure Kept (u : UnicodeData) (s t : OperationRegistry τ) : Prop where
  apart : ∀ a ∈ s.tokens, ∀ b ∈ s.tokens, a ≠ b →
    a.operationId ≠ b.operationId ∧ Disjoint a.conflictGroups b.conflictGroups
  cancelled : ∀ token, s.cancelled token = true → t.cancelled token = true
  reason : ∀ token : OperationToken, s.cancellationReason token.ref ≠ [] →
    t.cancellationReason token.ref = s.cancellationReason token.ref
  finish : ∀ token r, OperationRegistry.step u s (.finish token) = some r →
    r.tokens = s.tokens.filter (· ≠ token)
  emptied : s.shutdownReturned = true → t.tokens = []

/-- Once `shutdown` has returned, every token was finished, is cancelled, or was taken by another
call that has still to cancel it. -/
theorem registry_kept (before after : List (Action τ))
    (hs : exec (OperationRegistry.step u) .new before = some s)
    (ht : exec (OperationRegistry.step u) s after = some t) :
    Kept u s t ∧ (s.shutdownReturned = true → ∀ token ∈ s.created,
      token ∈ s.finished ∨ s.cancelled token = true ∨ s.BeingCancelled token) := by
  obtain ⟨hinv, _⟩ := Inv.new.of_exec hs
  obtain ⟨hinv', hlater⟩ := hinv.of_exec ht
  refine ⟨⟨fun a ha b hb hne => hinv.registered.apart.forall ha hb hne,
    fun token => hlater.isSet token.cancelEvent, fun token => hlater.reason token.ref,
    fun token r hstep => ?_, fun hreturned => ?_⟩, fun hreturned token hcreated => ?_⟩
  · rw [OperationRegistry.step] at hstep
    split_ifs at hstep with hcreated
    cases hstep
    exact hinv.registered.finish_tokens hcreated
  · exact (hinv'.emptied (.inr (hlater.shutdownReturned hreturned))).2
  · obtain hmem | hrest := hinv.traced token hcreated
    · rw [(hinv.emptied (.inr hreturned)).2] at hmem
      cases hmem
    · exact hrest

theorem registry_kept_run : ∃ s t : OperationRegistry Nat, Kept .ascii s t :=
  ⟨_, _, (registry_kept (u := .ascii) [.register { ownerKey := ['a'] } ['x'], .shutdown 0 []]
    [.shutdownTakes 0, .cancelNext 0, .returns 0] rfl rfl).1⟩

/-- The second of two calls of `shutdown` finds an empty registry and returns before the first one
has cancelled anything. -/
theorem not_cancelled_after_shutdown :
    ¬∀ (as : List (Action Nat)) (s : OperationRegistry Nat),
      exec (OperationRegistry.step .ascii) .new as = some s → s.shutdownReturned = true →
        ∀ token ∈ s.created, token ∈ s.finished ∨ s.cancelled token = true := by
  intro h
  have hclaim := h [.register { ownerKey := ['a'] } ['x'], .shutdown 0 [], .shutdownTakes 0, .shutdown 1 [],
    .shutdownTakes 1, .returns 1] _ rfl rfl _ List.mem_cons_self
  obtain hfinished | hcancelled := hclaim
  · cases hfinished
  · cases hcancelled

end OperationRegistry

end OpenAdb.Context.Operations
