import OpenAdb.Transfer.Progress

namespace OpenAdb.Transfer.Progress

open OpenAdb.Lib.PyText

variable (p : Python)

namespace TransferProgressTracker

/-- The value that a counter gets from its absolute argument or its delta. -/
def reached (current : Nat) (absolute delta : PyObject) : Option Nat :=
  (count p absolute).bind (fun n => (count p delta).map (fun d => max current n + d))

def refused (absolute delta : PyObject) : Prop := count p absolute = none ∨ count p delta = none

/-- A counter or a total has been raised when a later argument is refused. -/
def PartlyApplied (t : TransferProgressTracker) (a : UpdateArguments) : Prop :=
  t.status = .running ∧ (given a.doneBytes && given a.byteDelta) = false ∧
    (given a.doneFiles && given a.fileDelta) = false ∧
    ∃ totalBytes, count p a.totalBytes = some totalBytes ∧
      (count p a.totalFiles = none ∧ t.totalBytes < totalBytes ∨
        ∃ totalFiles, count p a.totalFiles = some totalFiles ∧
          (refused p a.doneBytes a.byteDelta ∧ (t.totalBytes < totalBytes ∨ t.totalFiles < totalFiles) ∨
            ∃ doneBytes, reached p t.doneBytes a.doneBytes a.byteDelta = some doneBytes ∧
              refused p a.doneFiles a.fileDelta ∧
              (t.totalBytes < totalBytes ∨ t.totalFiles < totalFiles ∨ t.doneBytes < doneBytes)))

/-- `ingest` checks the arguments that it passes on, so its `update` refuses none of them. -/
def AllOrNothing (t : TransferProgressTracker) : Call → Prop
  | .update a _ => ¬PartlyApplied p t a
  | _ => True

/-- A call that raises leaves the state as it was. -/
def Unchanged (t : TransferProgressTracker) (outcome : Outcome) : Prop :=
  ∀ e, outcome.2 = .error e → outcome.1 = t

variable {p : Python} {t : TransferProgressTracker} {a : UpdateArguments}

theorem unchanged_self (t : TransferProgressTracker) (r : Except ValueError TransferProgressSnapshot) :
    Unchanged t (t, r) := fun _ _ => rfl

theorem unchanged_ok (t u : TransferProgressTracker) (s : TransferProgressSnapshot) :
    Unchanged t (u, .ok s) := fun _ h => nomatch h

theorem unchanged_error_iff (t u : TransferProgressTracker) (e : ValueError) :
    Unchanged t (u, .error e) ↔ u = t :=
  ⟨fun h => h e rfl, fun h _ _ => h⟩

theorem counters_eq_iff (totalBytes totalFiles doneBytes : Nat) :
    { t with totalBytes, totalFiles, doneBytes } = t ↔
      totalBytes = t.totalBytes ∧ totalFiles = t.totalFiles ∧ doneBytes = t.doneBytes := by
  cases t
  simp [and_assoc, and_comm]

theorem reached_of_ok {current n : Nat} {absolute delta : PyObject} {name deltaName : Argument}
    (hboth : (given absolute && given delta) = false)
    (h : advanced p current absolute delta name deltaName = .ok n) :
    reached p current absolute delta = some n := by
  have hadvanced := advanced_toOption (p := p) current absolute delta name deltaName hboth
  rw [h] at hadvanced
  exact hadvanced.symm

theorem not_refused_of_reached {current n : Nat} {absolute delta : PyObject}
    (h : reached p current absolute delta = some n) : ¬refused p absolute delta := by
  obtain ⟨m, hm, hrest⟩ := Option.bind_eq_some_iff.mp h
  obtain ⟨d, hd, _⟩ := Option.map_eq_some_iff.mp hrest
  rw [refused, hm, hd]
  exact fun hnone => hnone.elim nofun nofun

theorem update_unchanged_iff (t : TransferProgressTracker) (a : UpdateArguments) (now : ℚ) :
    Unchanged t (t.update p a now) ↔ ¬PartlyApplied p t a := by
  rw [update]
  split_ifs with hbytes hfiles hrunning
  · exact iff_of_true (unchanged_self t _) fun h => by simp [h.2.1] at hbytes
  · exact iff_of_true (unchanged_self t _) fun h => by simp [h.2.2.1] at hfiles
  · exact iff_of_true (unchanged_self t _) fun h => hrunning h.1
  rw [not_not] at hrunning
  rw [Bool.not_eq_true] at hbytes hfiles
  rw [PartlyApplied, and_iff_right hrunning, and_iff_right hbytes, and_iff_right hfiles]
  cases htb : raised p t.totalBytes a.totalBytes .totalBytes with
  | error e =>
    have hnone := raised_error htb
    exact iff_of_true (unchanged_self t _) fun h => by simp [hnone] at h
  | ok totalBytes =>
  obtain ⟨tb, htb', rfl⟩ := raised_ok htb
  dsimp only
  cases htf : raised p t.totalFiles a.totalFiles .totalFiles with
  | error e =>
    have hnone := raised_error htf
    rw [unchanged_error_iff, counters_eq_iff]
    simp [htb', hnone]
  | ok totalFiles =>
  obtain ⟨tf, htf', rfl⟩ := raised_ok htf
  dsimp only
  cases hdb : advanced p t.doneBytes a.doneBytes a.byteDelta .doneBytes .byteDelta with
  | error e =>
    have hrefused : refused p a.doneBytes a.byteDelta := advanced_error hbytes hdb
    have hnone (n : Nat) : reached p t.doneBytes a.doneBytes a.byteDelta ≠ some n :=
      fun h => not_refused_of_reached h hrefused
    rw [unchanged_error_iff, counters_eq_iff]
    simp [htb', htf', hrefused, hnone]
  | ok doneBytes =>
  have hreached := reached_of_ok hbytes hdb
  have hbytesTaken := not_refused_of_reached hreached
  have hgrows : t.doneBytes ≤ doneBytes := by
    obtain ⟨m, d, _, _, rfl⟩ := advanced_ok hbytes hdb
    omega
  dsimp only
  cases hdf : advanced p t.doneFiles a.doneFiles a.fileDelta .doneFiles .fileDelta with
  | error e =>
    have hrefused : refused p a.doneFiles a.fileDelta := advanced_error hfiles hdf
    rw [unchanged_error_iff, counters_eq_iff]
    simp only [htb', htf', hreached, hbytesTaken, hrefused, Option.some.injEq, exists_eq_left', false_and,
      false_or, true_and, reduceCtorEq]
    omega
  | ok doneFiles =>
    have htaken := not_refused_of_reached (reached_of_ok hfiles hdf)
    dsimp only
    refine iff_of_true (unchanged_ok t _ _) ?_
    simp [htb', htf', hbytesTaken, htaken]

theorem finish_unchanged (t u : TransferProgressTracker) (message : PyObject) (now : ℚ) :
    Unchanged t (u.finish p message now) := by
  rw [finish]
  split_ifs
  all_goals exact unchanged_ok t _ _

theorem fail_unchanged (t u : TransferProgressTracker) (error : PyObject) (now : ℚ) :
    Unchanged t (u.fail p error now) := by
  rw [fail]
  split_ifs
  all_goals exact unchanged_ok t _ _

theorem cancel_unchanged (t u : TransferProgressTracker) (message : PyObject) (now : ℚ) :
    Unchanged t (u.cancel p message now) := by
  rw [cancel]
  split_ifs
  all_goals exact unchanged_ok t _ _

theorem recordFailure_unchanged (t : TransferProgressTracker) (item error : PyObject) (now : ℚ) :
    Unchanged t (t.recordFailure p item error now) := by
  rw [recordFailure]
  split_ifs
  all_goals exact unchanged_ok t _ _

theorem not_refused {absolute delta : PyObject} (habsolute : count p absolute ≠ none) (hdelta : delta = .none) :
    ¬refused p absolute delta := by
  subst hdelta
  exact fun hrefused => hrefused.elim habsolute (Option.some_ne_none 0)

theorem arguments_not_partlyApplied {update : Update} (h : update.arguments p = .ok a) :
    ¬PartlyApplied p t a := by
  obtain ⟨hdoneBytes, _, hdoneFiles, htotalFiles, hbyteDelta, hfileDelta⟩ := arguments_counted h
  intro hpartly
  obtain ⟨_, _, _, _, _, ⟨hnone, _⟩ | ⟨_, _, ⟨hrefused, _⟩ | ⟨_, _, hrefused, _⟩⟩⟩ := hpartly
  · exact htotalFiles hnone
  · exact not_refused hdoneBytes hbyteDelta hrefused
  · exact not_refused hdoneFiles hfileDelta hrefused

theorem ingest_unchanged (t : TransferProgressTracker) (update : Update) (now : ℚ) :
    Unchanged t (t.ingest p update now) := by
  rw [ingest]
  split
  · exact unchanged_self t _
  rename_i a harguments
  have hupdate := (update_unchanged_iff t a now).mpr (arguments_not_partlyApplied harguments)
  split
  · rename_i heq
    rwa [heq] at hupdate
  · split_ifs
    · exact cancel_unchanged t _ _ _
    · exact fail_unchanged t _ _ _
    · exact fail_unchanged t _ _ _
    · exact finish_unchanged t _ _ _
    · exact unchanged_ok t _ _

end TransferProgressTracker

end OpenAdb.Transfer.Progress
