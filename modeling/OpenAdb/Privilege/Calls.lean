import OpenAdb.Privilege.Discipline

namespace OpenAdb.Privilege.Calls

open OpenAdb.Context.Device OpenAdb.Context.Device.DeviceManager OpenAdb.Lib.PyText OpenAdb.Lib.Threads
  OpenAdb.Lib.Threads.Program OpenAdb.Privilege.Manager OpenAdb.Privilege.Discipline
open OpenAdb.Settings.Values (Backend)

variable {δ π : Type} {u : UnicodeData} {context : DeviceContext π}
  {lease : PrivilegeOperationLease} {status : PrivilegeStatus} {facade : Facade π} {expected : Backend}
  {executor : Executor} {P : PrivilegeManager δ π → Prop} {settled selected current cached : Now δ π}
  {verified : Nat}

/-- What the read of the cache saw. -/
structure Held (status : PrivilegeStatus) (verified : Nat) (cached : Now δ π) (s : PrivilegeManager δ π) :
    Prop where
  event : verified = cached.event
  lease : ⟨status.backend, verified⟩ ∈ s.leases
  published : ∃ n, Later n cached ∧ Matches status n
  later : Later cached s.now

theorem Held.generation {s : PrivilegeManager δ π} (h : Held status verified cached s) {n : Now δ π}
    (hn : n.generationMatches status = true) : some n.device.generation = status.deviceGeneration := by
  obtain ⟨m, _, hm⟩ := h.published
  rw [Now.generationMatches, ← hm.generation] at hn
  rw [← hm.generation, of_decide_eq_true hn]

variable [DecidableEq π]

/-- The lease was captured. -/
def Captured (lease : PrivilegeOperationLease) (s : PrivilegeManager δ π) : Prop := lease ∈ s.leases

theorem captured_stable (lease : PrivilegeOperationLease) : Stable (discipline δ π u) (Captured lease) :=
  fun _ _ hmoves hlease => hmoves.leases.subset hlease

/-- The context was current. -/
def Seen (u : UnicodeData) (context : DeviceContext π) (s : PrivilegeManager δ π) : Prop :=
  ∃ n, Later n s.now ∧ n.device.isContextCurrent u context = true

theorem seen_stable (context : DeviceContext π) : Stable (discipline δ π u) (Seen u context) :=
  fun _ _ hmoves ⟨n, hn, hcurrent⟩ => ⟨n, hn.trans hmoves.now, hcurrent⟩

theorem prepared_stable (facade : Facade π) :
    Stable (discipline δ π u) (fun s => Prepared u s facade) := fun _ _ hmoves h => h.moves hmoves

theorem later_stable (n : Now δ π) : Stable (discipline δ π u) (fun s => Later n s.now) :=
  fun _ _ hmoves h => h.trans hmoves.now

theorem fact_stable (φ : Prop) : Stable (discipline δ π u) (fun _ => φ) := fun _ _ _ => id

/-- What a preparation knows of the facade that it makes. -/
theorem preparedFor (hbackend : lease.backend ≠ .standard) (shell : Executor) {s : PrivilegeManager δ π}
    (hlease : Captured lease s) (hseen : Seen u context s) :
    Prepared u s ⟨lease.backend, context, lease.cancelEvent, shell⟩ := ⟨hlease, hbackend, hseen⟩

section

variable (hP : Stable (discipline δ π u) P)

include hP

theorem examine_stays (c : Answer → Now δ π → Bool) (e : Raised) : Stays (discipline δ π u) P (examine c e) :=
  Stays.reads hP

theorem record_stays {e : Entry δ π} (he : ∀ s, P s → Sound u s.leases e) :
    Stays (discipline δ π u) P (record e) := Stays.update hP (fun s hs hPs => hs.note (he s hPs))

theorem consult_keeps {α : Type} (f : Answer → α) : Keeps (discipline δ π u)
    (fun a s => (∃ i, f i = a) ∧ P s) (fun _ => P) (consult f) P := by
  apply (Keeps.ask hP).mono (fun _ _ => id) _ (fun _ _ => id)
  intro a s ⟨⟨i, hi⟩, hs⟩
  refine ⟨⟨i, ?_⟩, hs⟩
  split_ifs at hi
  exact Except.ok.inj hi

theorem consult_stays {α : Type} (f : Answer → α) : Stays (discipline δ π u) P (consult f) := Stays.ask hP

theorem requireOperationLease_stays (lease : PrivilegeOperationLease) :
    Stays (discipline δ π u) P (requireOperationLease u lease) := by
  apply (examine_stays hP _ _).bind
  intro _
  apply (examine_stays hP _ _).bind
  intro _
  apply (examine_stays hP _ _).bind
  exact fun _ => Stays.pure

theorem stillPreparing_stays (context : DeviceContext π) (lease : PrivilegeOperationLease) :
    Stays (discipline δ π u) P (stillPreparing u context lease) := by
  apply (examine_stays hP _ _).bind
  intro _
  apply (examine_stays hP _ _).bind
  exact fun _ => requireOperationLease_stays hP lease

theorem reset_stays : Stays (discipline δ π u) P (reset : Prog δ π Unit) := by
  have hreplaced : Stays (discipline δ π u) P
      (locked (fun _ s => (.ok s.now.event, s.replaceEvent)) : Prog δ π Nat) :=
    Stays.locked hP (fun _ _ hs _ => replaceEvent_keeps hs)
  apply hreplaced.bind
  exact fun stale => Stays.update hP (fun _ hs _ => setEvent_keeps hs stale)

theorem resetIfLeaseCurrent_stays (lease : PrivilegeOperationLease) :
    Stays (discipline δ π u) P (resetIfLeaseCurrent u lease) := by
  have hreplaced : Stays (discipline δ π u) P
      (locked (fun _ s => (.ok (s.replaceEventFor u lease).1, (s.replaceEventFor u lease).2)) :
        Prog δ π (Option Nat)) := Stays.locked hP (fun _ _ hs _ => replaceEventFor_keeps hs lease)
  apply hreplaced.bind
  intro stale
  cases stale with
  | none => exact Stays.pure
  | some stale =>
    apply (Stays.update hP (fun _ hs _ => setEvent_keeps hs stale)).bind
    exact fun _ => Stays.pure

theorem resetOnError_stays {α : Type} {x : Prog δ π α} (lease : PrivilegeOperationLease)
    (hx : Stays (discipline δ π u) P x) : Stays (discipline δ π u) P (resetOnError u lease x) := by
  apply hx.handle
  intro e
  apply (Stays.reads hP).bind
  intro linked
  cases linked with
  | true => exact Stays.raise
  | false =>
    apply (resetIfLeaseCurrent_stays hP lease).bind
    exact fun _ => Stays.raise

theorem cacheIfCurrent_stays (hlease : ∀ s, P s → lease ∈ s.leases)
    (hbound : status.deviceGeneration.isSome = true) :
    Stays (discipline δ π u) P (cacheIfCurrent u status lease) := by
  apply Stays.ite
  · exact fun _ => Stays.pure
  · exact fun _ => Stays.update hP (fun s hs hPs => publish_keeps hs (hlease s hPs) hbound)

theorem captureOperationLease_keeps : Keeps (discipline δ π u)
    (fun lease s => Captured lease s ∧ P s) (fun _ => P) (captureOperationLease u) P := by
  have hadded (s : PrivilegeManager δ π) (hs : Inv u s) :
      Inv u { s with leases := ⟨s.now.selectedBackend u, s.now.event⟩ :: s.leases } ∧
        Moves s { s with leases := ⟨s.now.selectedBackend u, s.now.event⟩ :: s.leases } := by
    have hmoves : Moves s { s with leases := ⟨s.now.selectedBackend u, s.now.event⟩ :: s.leases } :=
      ⟨.refl _, List.suffix_cons ..⟩
    refine ⟨hs.moves hmoves hs.ordered rfl rfl rfl ?_ (fun _ => .inl) (fun _ => .inl), hmoves⟩
    intro lease hlease
    obtain rfl | hold := List.mem_cons.mp hlease
    · exact .inr rfl
    · exact .inl hold
  apply Keeps.locked
  · exact fun _ s hs _ => hadded s hs
  · intro _ s hs hPs t _ ht
    refine ⟨ht.leases.subset List.mem_cons_self, ?_⟩
    exact hP s t ((discipline δ π u).trans _ _ _ (hadded s hs).2 ht) hPs

theorem leaseOr_keeps (given : Option PrivilegeOperationLease)
    (hgiven : ∀ lease, given = some lease → ∀ s, P s → Captured lease s) :
    Keeps (discipline δ π u) (fun lease s => Captured lease s ∧ P s) (fun _ => P) (leaseOr u given) P := by
  cases given with
  | none => exact captureOperationLease_keeps hP
  | some lease => exact Keeps.pure (fun s _ hPs => ⟨hgiven lease rfl s hPs, hPs⟩)

end

theorem held_stable : Stable (discipline δ π u) (Held status verified cached) :=
  fun _ _ hmoves h => ⟨h.event, hmoves.leases.subset h.lease, h.published, h.later.trans hmoves.now⟩

/-- The reads in their order. -/
theorem confirmStatus_stays (hP : Stable (discipline δ π u) P)
    (hheld : ∀ s, P s → Held status verified cached s) :
    Stays (discipline δ π u) P (confirmStatus u status verified cached) := by
  have hserial : Keeps (discipline δ π u)
      (fun serial t => (Later cached serial ∧ Later serial t.now) ∧ P t) (fun _ => P)
      (read PrivilegeManager.now : Prog δ π (Now δ π)) P :=
    Keeps.read (fun s _ hs t ht => ⟨⟨(hheld s hs).later, ht.now⟩, hP s t ht hs⟩)
  apply hserial.bind
  intro serial
  by_cases hmatches : serial.serialMatches status = true
  · rw [if_pos hmatches]
    have hgeneration : Keeps (discipline δ π u)
        (fun generation t => (Later cached serial ∧ Later serial generation ∧ Later generation t.now) ∧ P t)
        (fun _ => P) (read PrivilegeManager.now : Prog δ π (Now δ π))
        (fun s => (Later cached serial ∧ Later serial s.now) ∧ P s) :=
      Keeps.read (fun s _ hs t ht => ⟨⟨hs.1.1, hs.1.2, ht.now⟩, hP s t ht hs.2⟩)
    apply hgeneration.bind
    intro generation
    by_cases hsame : generation.generationMatches status = true
    · rw [if_pos hsame]
      have hselected : Keeps (discipline δ π u)
          (fun selected t => (Later cached serial ∧ Later serial generation ∧ Later generation selected) ∧ P t)
          (fun _ => P) (read PrivilegeManager.now : Prog δ π (Now δ π))
          (fun s => (Later cached serial ∧ Later serial generation ∧ Later generation s.now) ∧ P s) :=
        Keeps.read (fun s _ hs t ht => ⟨hs.1, hP s t ht hs.2⟩)
      apply hselected.bind
      intro selected
      by_cases hbackend : status.backend = selected.selectedBackend u
      · rw [if_pos hbackend]
        have hsound (s : PrivilegeManager δ π)
            (hs : (Later cached serial ∧ Later serial generation ∧ Later generation selected) ∧ P s) :
            Sound u s.leases (.reported status verified cached serial generation selected) := by
          have h := hheld s hs.2
          obtain ⟨n, hn, hpublished⟩ := h.published
          refine ⟨⟨h.event, h.lease⟩, hs.1, ⟨?_, ?_⟩, hbackend.symm⟩
          · exact matches_between hn (hs.1.1.trans hs.1.2.1) hpublished (h.generation hsame)
          · exact matches_between (hn.trans (hs.1.1.trans hs.1.2.1)) (.refl _) hpublished (h.generation hsame)
        have hnoted := record_stays ((fact_stable (u := u)
          (Later cached serial ∧ Later serial generation ∧ Later generation selected)).and hP) hsound
        apply (hnoted.mono (fun _ _ => id) (fun _ _ => And.right) (fun _ _ => And.right)).bind
        exact fun _ => Stays.pure
      · rw [if_neg hbackend]
        exact Keeps.pure (fun _ _ => And.right)
    · rw [if_neg hsame]
      exact Keeps.pure (fun _ _ => And.right)
  · rw [if_neg hmatches]
    exact Keeps.pure (fun _ _ => And.right)

section

variable (hP : Stable (discipline δ π u) P)

include hP

theorem cachedStatus_stays : Stays (discipline δ π u) P (cachedStatus u) := by
  have hread : Keeps (discipline δ π u)
      (fun r t => (∀ status, r.1 = some status → Held status r.2.1 r.2.2 t) ∧ P t) (fun _ => P)
      (read (fun s => (s.cached, s.verified, s.now)) :
        Prog δ π (Option PrivilegeStatus × Nat × Now δ π)) P := by
    apply Keeps.read
    intro s hs hPs t ht
    refine ⟨?_, hP s t ht hPs⟩
    intro status hstatus
    obtain ⟨hevent, hlease, hpublished⟩ := hs.cached status hstatus
    exact ⟨hevent, ht.leases.subset hlease, hpublished, ht.now⟩
  apply hread.bind
  intro r
  obtain ⟨status, verified, cached⟩ := r
  cases status with
  | none => exact Keeps.pure (fun _ _ => And.right)
  | some status =>
    have hconfirmed : Stays (discipline δ π u) (fun s => Held status verified cached s ∧ P s)
        (confirmStatus u status verified cached) :=
      confirmStatus_stays (held_stable.and hP) (fun _ => And.left)
    exact hconfirmed.mono (fun _ _ hs => ⟨hs.1 status rfl, hs.2⟩) (fun _ _ => And.right) (fun _ _ => And.right)

theorem cachedIdentity_stays : Stays (discipline δ π u) P (cachedIdentity u) := by
  apply (cachedStatus_stays hP).bind
  intro cached
  cases cached with
  | none => exact Stays.pure
  | some cached =>
    apply (Stays.reads hP).bind
    intro recent
    exact Stays.ite (fun _ => Stays.pure) (fun _ => Stays.pure)

theorem linkedIsSet_stays (lease : PrivilegeOperationLease) : Stays (discipline δ π u) P
    (locked (fun i s => (.ok (linkedIsSet lease.cancelEvent i s.now), s)) : Prog δ π Bool) :=
  Stays.reads hP

/-- The end of a verification: it is cached unless it was cancelled. -/
theorem cacheUnlessSet_stays (hlease : ∀ s, P s → Captured lease s)
    (hbound : status.deviceGeneration.isSome = true) : Stays (discipline δ π u) P (do
      if ← locked (fun i s => (.ok (linkedIsSet lease.cancelEvent i s.now), s)) then pure status
      else
        cacheIfCurrent u status lease
        pure status) := by
  apply (linkedIsSet_stays hP lease).bind
  intro linked
  apply Stays.ite
  · exact fun _ => Stays.pure
  · intro _
    apply (cacheIfCurrent_stays hP hlease hbound).bind
    exact fun _ => Stays.pure

theorem check_runs (context : DeviceContext π) (backend : Option PyObject)
    (given : Option PrivilegeOperationLease)
    (hgiven : ∀ lease, given = some lease → ∀ s, P s → Captured lease s) :
    Runs (discipline δ π u) P (check u context backend given) := by
  apply Runs.bind (Stays.read hP)
  intro selected
  apply Runs.bind (leaseOr_keeps hP given hgiven)
  intro lease
  have hstable := (captured_stable (u := u) lease).and hP
  apply Stays.runs
  apply Stays.ite
  · exact fun _ => Stays.raise
  · intro _
    apply (requireOperationLease_stays hstable lease).bind
    intro _
    apply Keeps.bind (consult_keeps hstable (probe context selected))
    intro status
    have hbound : (∃ i, probe context selected i = status) → status.deviceGeneration.isSome = true := by
      intro ⟨i, hi⟩
      subst hi
      cases selected <;> rfl
    apply Keeps.of_fact
    intro hstatus
    apply (examine_stays hstable _ _).bind
    intro _
    apply (Stays.ask hstable).bind
    intro cancelled
    apply Stays.ite
    · exact fun _ => Stays.pure
    · intro _
      apply (requireOperationLease_stays hstable lease).bind
      intro _
      exact cacheUnlessSet_stays hstable (fun _ => And.left) (hbound hstatus)

theorem requestState_runs (context : DeviceContext π) (given : Option PrivilegeOperationLease)
    (hgiven : ∀ lease, given = some lease → ∀ s, P s → Captured lease s) :
    Runs (discipline δ π u) P (requestState u context given) := by
  apply Runs.bind (leaseOr_keeps hP given hgiven)
  intro lease
  have hstable := (captured_stable (u := u) lease).and hP
  apply Stays.runs
  apply Stays.ite
  · exact fun _ => Stays.raise
  · intro _
    apply (requireOperationLease_stays hstable lease).bind
    intro _
    apply (examine_stays hstable _ _).bind
    intro _
    apply Keeps.bind (consult_keeps hstable (fun i => fromShizuku context i.state))
    intro status
    apply Keeps.of_fact
    intro ⟨i, hi⟩
    subst hi
    apply (requireOperationLease_stays hstable lease).bind
    intro _
    apply (examine_stays hstable _ _).bind
    intro _
    exact cacheUnlessSet_stays hstable (fun _ => And.left) rfl

theorem prepared_stays (hprepared : ∀ s, P s → Prepared u s facade) :
    Stays (discipline δ π u) P (prepared facade) := by
  apply Stays.locked hP
  intro _ s hs hPs
  have hmoves : Moves s { s with facades := facade :: s.facades } := ⟨.refl _, List.suffix_refl _⟩
  refine ⟨hs.moves hmoves hs.ordered rfl rfl rfl (fun _ => .inl) ?_ (fun _ => .inl), hmoves⟩
  intro other hother
  obtain rfl | hold := List.mem_cons.mp hother
  · exact .inr ((hprepared s hPs).moves hmoves)
  · exact .inl hold

theorem prepareStandardAdb_stays (hlease : ∀ s, P s → Captured lease s) (context : DeviceContext π) :
    Stays (discipline δ π u) P (prepareStandardAdb u context lease) := by
  apply (consult_stays hP _).bind
  intro uid
  apply (examine_stays hP _ _).bind
  intro _
  apply (requireOperationLease_stays hP lease).bind
  intro _
  apply (cacheIfCurrent_stays hP hlease rfl).bind
  intro _
  exact Stays.ite (fun _ => Stays.pure) (fun _ => Stays.raise)

theorem probeRoot_stays (context : DeviceContext π) (lease : PrivilegeOperationLease) :
    Stays (discipline δ π u) P (probeRoot u context lease) := by
  apply (consult_stays hP _).bind
  intro r
  apply (stillPreparing_stays hP context lease).bind
  intro _
  apply Stays.ite
  · exact fun _ => Stays.pure
  · intro _
    apply (consult_stays hP _).bind
    intro su
    apply (stillPreparing_stays hP context lease).bind
    exact fun _ => Stays.pure

theorem prepareRootAdb_stays (hlease : ∀ s, P s → Captured lease s) (hseen : ∀ s, P s → Seen u context s)
    (hbackend : lease.backend = .root) : Stays (discipline δ π u) P (prepareRootAdb u context lease) := by
  apply Stays.ite
  · intro _
    apply (examine_stays hP _ _).bind
    exact fun _ => Stays.pure
  · intro _
    apply (resetOnError_stays hP lease (probeRoot_stays hP context lease)).bind
    intro r
    apply (stillPreparing_stays hP context lease).bind
    intro _
    apply (cacheIfCurrent_stays hP hlease rfl).bind
    intro _
    apply (examine_stays hP _ _).bind
    intro _
    apply (requireOperationLease_stays hP lease).bind
    intro _
    obtain ⟨uid, strategy⟩ := r
    cases strategy with
    | none => exact Stays.ite (fun _ => Stays.pure) (fun _ => Stays.raise)
    | some shell =>
      apply (examine_stays hP _ _).bind
      intro _
      apply prepared_stays hP
      intro s hs
      rw [← hbackend]
      exact preparedFor (by rw [hbackend]; nofun) shell (hlease s hs) (hseen s hs)

theorem cacheSession_stays (hlease : ∀ s, P s → Captured lease s) (usedCachedState : Bool) (session : Session) :
    Stays (discipline δ π u) P (cacheSession u context usedCachedState session lease) :=
  Stays.ite (fun _ => Stays.pure) (fun _ => cacheIfCurrent_stays hP hlease rfl)

theorem rejectSession_stays (lease : PrivilegeOperationLease) :
    Stays (discipline δ π u) P (rejectSession u lease) := by
  apply (resetIfLeaseCurrent_stays hP lease).bind
  exact fun _ => Stays.raise

theorem openSession_stays (state : Option ShizukuState) : Stays (discipline δ π u) P (openSession state) := by
  cases state with
  | some state => exact consult_stays hP _
  | none =>
    apply (consult_stays hP _).bind
    exact fun _ => Stays.pure

theorem prepareShizukuAdb_stays (hlease : ∀ s, P s → Captured lease s) (hseen : ∀ s, P s → Seen u context s)
    (hbackend : lease.backend = .shizuku) :
    Stays (discipline δ π u) P (prepareShizukuAdb u context lease) := by
  apply Stays.ite
  · intro _
    apply (requireOperationLease_stays hP lease).bind
    intro _
    apply (examine_stays hP _ _).bind
    exact fun _ => Stays.raise
  · intro _
    apply (cachedIdentity_stays hP).bind
    intro identity
    apply (resetOnError_stays hP lease (openSession_stays hP identity.2)).bind
    intro r
    apply (stillPreparing_stays hP context lease).bind
    intro _
    apply Stays.ite (fun _ => Stays.raise)
    intro _
    apply Stays.ite (fun _ => rejectSession_stays hP lease)
    intro _
    apply Stays.ite (fun _ => rejectSession_stays hP lease)
    intro _
    apply (examine_stays hP _ _).bind
    intro _
    apply (examine_stays hP _ _).bind
    intro _
    apply (cacheSession_stays hP hlease r.2 r.1).bind
    intro _
    apply (examine_stays hP _ _).bind
    intro _
    apply (requireOperationLease_stays hP lease).bind
    intro _
    apply (examine_stays hP _ _).bind
    intro _
    apply prepared_stays hP
    intro s hs
    rw [← hbackend]
    exact preparedFor (by rw [hbackend]; nofun) .session (hlease s hs) (hseen s hs)

theorem requireContextCurrent_seen (context : DeviceContext π) : Keeps (discipline δ π u)
    (fun _ s => Seen u context s ∧ P s) (fun _ => P) (requireContextCurrent u context) P := by
  apply Keeps.reads hP
  intro _ s _ _ _ hcurrent t ht hPt
  split_ifs at hcurrent with hcondition
  exact ⟨⟨s.now, ht.now, hcondition⟩, hPt⟩

theorem prepareAdb_runs (context : DeviceContext π) (given : Option PrivilegeOperationLease)
    (hgiven : ∀ lease, given = some lease → ∀ s, P s → Captured lease s) :
    Runs (discipline δ π u) P (prepareAdb u context given) := by
  apply Runs.bind (leaseOr_keeps hP given hgiven)
  intro lease
  have hleased := (captured_stable (u := u) lease).and hP
  apply Runs.bind (requireOperationLease_stays hleased lease)
  intro _
  apply Runs.bind (requireContextCurrent_seen hleased context)
  intro _
  have hstable := (seen_stable context).and hleased
  have hcaptured (s : PrivilegeManager δ π) (hs : Seen u context s ∧ Captured lease s ∧ P s) :
      Captured lease s := hs.2.1
  have hseen (s : PrivilegeManager δ π) (hs : Seen u context s ∧ Captured lease s ∧ P s) :
      Seen u context s := hs.1
  apply Stays.runs
  apply (examine_stays hstable _ _).bind
  intro _
  apply (consult_stays hstable _).bind
  intro _
  apply (requireOperationLease_stays hstable lease).bind
  intro _
  apply (examine_stays hstable _ _).bind
  intro _
  cases hbackend : lease.backend with
  | standard => exact prepareStandardAdb_stays hstable hcaptured context
  | root => exact prepareRootAdb_stays hstable hcaptured hseen hbackend
  | shizuku => exact prepareShizukuAdb_stays hstable hcaptured hseen hbackend

end

end OpenAdb.Privilege.Calls
