import OpenAdb.Lib.Effects
import Mathlib.Data.List.Infix

namespace OpenAdb.Lib.EventLog

open Effects

variable {ε ρ α β : Type}

/-- A flag that stays set once a growing log, the latest event first, has found it set. -/
structure Flag (ε : Type) where
  isSet : List ε → Bool
  sticky : ∀ log e, isSet log = true → isSet (e :: log) = true

theorem Flag.isSet_suffix (f : Flag ε) {past log : List ε} (hlog : past <:+ log)
    (h : f.isSet log = false) : f.isSet past = false := by
  obtain ⟨later, rfl⟩ := hlog
  induction later with
  | nil => exact h
  | cons e later ih =>
    refine ih (Bool.eq_false_iff.mpr fun hset => ?_)
    rw [List.cons_append, f.sticky _ e hset] at h
    cases h

/-- Every event of the log stands in the relation to the events before it. -/
def Each (R : List ε → ε → Prop) : List ε → Prop
  | [] => True
  | e :: past => R past e ∧ Each R past

theorem Each.of_append {R : List ε → ε → Prop} {later log : List ε} (h : Each R (later ++ log)) :
    Each R log := by
  induction later with
  | nil => exact h
  | cons e later ih => exact ih h.2

theorem Each.at {R : List ε → ε → Prop} {later past : List ε} {e : ε} (h : Each R (later ++ e :: past)) :
    R past e :=
  h.of_append.1

/-- After every event of one kind comes one of the other. -/
def Followed (p q : ε → Prop) (log : List ε) : Prop :=
  ∀ later e past, log = later ++ e :: past → p e → ∃ e' ∈ later, q e'

section Followed

variable {p q : ε → Prop} {e : ε} {log : List ε}

theorem followed_of_forall (h : ∀ e ∈ log, ¬p e) : Followed p q log := by
  intro later e past hlog hp
  refine absurd hp (h e ?_)
  rw [hlog]
  exact List.mem_append_right _ List.mem_cons_self

theorem Followed.cons (hp : ¬p e) (h : Followed p q log) : Followed p q (e :: log) := by
  intro later e' past hlog hp'
  cases later with
  | nil =>
    rw [List.nil_append, List.cons.injEq] at hlog
    rw [hlog.1] at hp
    exact absurd hp' hp
  | cons e'' later =>
    rw [List.cons_append, List.cons.injEq] at hlog
    obtain ⟨found, hmem, hq⟩ := h later e' past hlog.2 hp'
    exact ⟨found, List.mem_cons_of_mem _ hmem, hq⟩

theorem followed_cons (hp : ¬p e) (hq : q e) : Followed p q (e :: log) := by
  intro later e' past hlog hp'
  cases later with
  | nil =>
    rw [List.nil_append, List.cons.injEq] at hlog
    rw [hlog.1] at hp
    exact absurd hp' hp
  | cons e'' later =>
    rw [List.cons_append, List.cons.injEq] at hlog
    rw [hlog.1] at hq
    exact ⟨e'', List.mem_cons_self, hq⟩

theorem not_followed (hp : ∃ e ∈ log, p e) (hq : ∀ e ∈ log, ¬q e) : ¬Followed p q log := by
  obtain ⟨e, hmem, hp⟩ := hp
  obtain ⟨later, past, rfl⟩ := List.append_of_mem hmem
  intro h
  obtain ⟨e', hmem', hq'⟩ := h later e past rfl hp
  exact hq e' (List.mem_append_left _ hmem') hq'

end Followed

/-- A fact about a log that later events do not undo. -/
def Persists (F : List ε → Prop) : Prop := ∀ e log, F log → F (e :: log)

theorem persists_mem (e : ε) : Persists (fun log => e ∈ log) := fun _ _ h => List.mem_cons_of_mem _ h

theorem Persists.and {F G : List ε → Prop} (hF : Persists F) (hG : Persists G) :
    Persists (fun log => F log ∧ G log) :=
  fun e log h => ⟨hF e log h.1, hG e log h.2⟩

/-- Ask the environment of the log so far, and log the answer. -/
def ask (answer : List ε → Except ρ α) (event : Except ρ α → ε) : Effect ρ (List ε) α := fun log =>
  (answer log, event (answer log) :: log)

/-- Look at something that never raises, and log what was seen. -/
def look (answer : List ε → α) (event : α → ε) : Effect ρ (List ε) α := fun log =>
  (.ok (answer log), event (answer log) :: log)

theorem ask_run {answer : List ε → Except ρ α} {event : Except ρ α → ε} {log : List ε} {r : Except ρ α}
    (h : answer log = r) : ask answer event log = (r, event r :: log) := by
  rw [ask, h]

variable {P : List ε → Prop} {Q : α → List ε → Prop} {E : ρ → List ε → Prop}

theorem Meets.ask {answer : List ε → Except ρ α} {event : Except ρ α → ε}
    (hok : ∀ log a, P log → answer log = .ok a → Q a (event (.ok a) :: log))
    (herr : ∀ log e, P log → answer log = .error e → E e (event (.error e) :: log)) :
    Meets P (ask answer event) Q E := by
  intro log hlog
  rw [EventLog.ask]
  cases h : answer log with
  | ok a => exact hok log a hlog h
  | error e => exact herr log e hlog h

theorem Meets.look {answer : List ε → α} {event : α → ε}
    (h : ∀ log, P log → Q (answer log) (event (answer log) :: log)) :
    Meets P (look answer event) Q E := h

end OpenAdb.Lib.EventLog
