import Mathlib.Data.List.Nodup

namespace OpenAdb.Lib.Handover

/-- Requests that are numbered as they arrive. A number may wait, and may be handed over. -/
structure Ledger where
  arrived : Nat
  waiting : List Nat
  handed : List Nat

namespace Ledger

variable {l m k : Ledger} {i : Nat} {exempt : Option Nat} {waiting : List Nat}

structure Inv (l : Ledger) : Prop where
  known : ∀ i ∈ l.waiting ++ l.handed, i < l.arrived
  nodup : (l.waiting ++ l.handed).Nodup

/-- It has arrived and is neither waiting nor handed over. -/
def Dead (l : Ledger) (i : Nat) : Prop := i < l.arrived ∧ i ∉ l.waiting ++ l.handed

/-- What is dead stays dead, apart from one number that somebody holds. -/
structure Later (exempt : Option Nat) (l m : Ledger) : Prop where
  arrived : l.arrived ≤ m.arrived
  dead : ∀ i, exempt ≠ some i → l.Dead i → m.Dead i

theorem Later.refl (exempt : Option Nat) (l : Ledger) : Later exempt l l := ⟨Nat.le_refl _, fun _ _ => id⟩

theorem Later.trans (h : Later exempt l m) (h' : Later exempt m k) : Later exempt l k where
  arrived := Nat.le_trans h.arrived h'.arrived
  dead i hi hdead := h'.dead i hi (h.dead i hi hdead)

theorem Later.exempting (h : Later none l m) (exempt : Option Nat) : Later exempt l m :=
  ⟨h.arrived, fun i _ => h.dead i nofun⟩

/-- A number that waited at the start was not dead there. -/
theorem Later.of_waiting (h : Later (some i) l m) (hi : i ∈ l.waiting) : Later none l m where
  arrived := h.arrived
  dead j _ hdead := by
    refine h.dead j (fun heq => ?_) hdead
    cases heq
    exact hdead.2 (List.mem_append_left _ hi)

/-- Neither was one that had not arrived. -/
theorem Later.of_fresh (h : Later (some l.arrived) l m) : Later none l m where
  arrived := h.arrived
  dead j _ hdead := by
    refine h.dead j (fun heq => ?_) hdead
    cases heq
    exact absurd hdead.1 (Nat.lt_irrefl _)

theorem Inv.arrive (h : Inv l) : Inv { l with arrived := l.arrived + 1 } :=
  ⟨fun i hi => Nat.lt_succ_of_lt (h.known i hi), h.nodup⟩

theorem Inv.dead_arrived (h : Inv l) : Dead { l with arrived := l.arrived + 1 } l.arrived :=
  ⟨Nat.lt_succ_self _, fun hmem => Nat.lt_irrefl _ (h.known _ hmem)⟩

theorem later_arrive (l : Ledger) : Later none l { l with arrived := l.arrived + 1 } :=
  ⟨Nat.le_succ _, fun _ _ hdead => ⟨Nat.lt_succ_of_lt hdead.1, hdead.2⟩⟩

theorem Inv.drop (h : Inv l) (hsub : waiting.Sublist l.waiting) : Inv { l with waiting := waiting } :=
  ⟨fun i hi => h.known i ((hsub.append_right _).subset hi), h.nodup.sublist (hsub.append_right _)⟩

theorem later_drop (hsub : waiting.Sublist l.waiting) : Later none l { l with waiting := waiting } :=
  ⟨Nat.le_refl _, fun _ _ hdead => ⟨hdead.1, fun hmem => hdead.2 ((hsub.append_right _).subset hmem)⟩⟩

/-- What is dropped from the waiting requests is dead. -/
theorem Inv.dead_drop (h : Inv l) (hi : i ∈ l.waiting) (hwaiting : i ∉ waiting) :
    Dead { l with waiting := waiting } i := by
  have hmem : i ∈ l.waiting ++ l.handed := List.mem_append_left _ hi
  refine ⟨h.known i hmem, fun hlater => ?_⟩
  obtain hlater | hhanded := List.mem_append.mp hlater
  · exact hwaiting hlater
  · exact (List.disjoint_of_nodup_append h.nodup) hi hhanded

theorem Inv.wait (h : Inv l) (hdead : l.Dead i) (hperm : waiting.Perm (i :: l.waiting)) :
    Inv { l with waiting := waiting } := by
  have hall : (waiting ++ l.handed).Perm (i :: (l.waiting ++ l.handed)) := hperm.append_right _
  constructor
  · intro j hj
    obtain rfl | hj := List.mem_cons.mp (hall.mem_iff.mp hj)
    · exact hdead.1
    · exact h.known j hj
  · exact hall.nodup_iff.mpr (List.nodup_cons.mpr ⟨hdead.2, h.nodup⟩)

theorem later_wait (hperm : waiting.Perm (i :: l.waiting)) :
    Later (some i) l { l with waiting := waiting } := by
  refine ⟨Nat.le_refl _, fun j hj hdead => ⟨hdead.1, fun hmem => ?_⟩⟩
  have hall : (waiting ++ l.handed).Perm (i :: (l.waiting ++ l.handed)) := hperm.append_right _
  obtain rfl | hmem := List.mem_cons.mp (hall.mem_iff.mp hmem)
  · exact hj rfl
  · exact hdead.2 hmem

theorem mem_hand {l : Ledger} {i j : Nat} (hmem : j ∈ l.waiting ++ (l.handed ++ [i])) :
    j ∈ l.waiting ++ l.handed ∨ j = i := by
  rw [← List.append_assoc] at hmem
  exact (List.mem_append.mp hmem).imp_right List.mem_singleton.mp

/-- Only what nobody else holds is handed over. -/
theorem Inv.hand (h : Inv l) (hdead : l.Dead i) : Inv { l with handed := l.handed ++ [i] } := by
  constructor
  · intro j hj
    obtain hj | rfl := mem_hand (l := l) hj
    · exact h.known j hj
    · exact hdead.1
  · show (l.waiting ++ (l.handed ++ [i])).Nodup
    rw [← List.append_assoc]
    refine List.nodup_append'.mpr ⟨h.nodup, List.nodup_singleton _, ?_⟩
    intro j hj hji
    rw [List.mem_singleton.mp hji] at hj
    exact hdead.2 hj

theorem later_hand (l : Ledger) (i : Nat) : Later (some i) l { l with handed := l.handed ++ [i] } := by
  refine ⟨Nat.le_refl _, fun j hj hdead => ⟨hdead.1, fun hmem => ?_⟩⟩
  obtain hmem | rfl := mem_hand (l := l) hmem
  · exact hdead.2 hmem
  · exact hj rfl

end Ledger

end OpenAdb.Lib.Handover
