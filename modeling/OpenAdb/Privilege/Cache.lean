import OpenAdb.Privilege.Facades

namespace OpenAdb.Privilege.Cache

open OpenAdb.Context.Device OpenAdb.Lib.Runs OpenAdb.Lib.Threads OpenAdb.Lib.PyText
  OpenAdb.Privilege.Manager OpenAdb.Privilege.Discipline OpenAdb.Privilege.Facades
open OpenAdb.Settings.Values (Backend)

variable {τ δ π : Type} [DecidableEq τ] [DecidableEq δ] [DecidableEq π] {u : UnicodeData}

/-- What `cached_status` returns is a status of the generation of leases that its first read finds, of the
device that is active until its generation is compared, and of the mode that is selected at its last
read. -/
theorem cachedStatus_reported {setting : Option PyObject} {device : DeviceManager δ π}
    {as : List (Action τ Answer (Request π) (Change δ π))} {t : Pool τ (PrivilegeManager δ π) Answer Raised}
    (hrun : exec (step (start u) (environment u)) (idle (Manager.init setting device)) as = some t)
    {status : PrivilegeStatus} {verified : Nat} {cached serial generation selected : Now δ π}
    (hreported : .reported status verified cached serial generation selected ∈ t.shared.log) :
    (verified = cached.event ∧ ⟨status.backend, verified⟩ ∈ t.shared.leases) ∧
      (∀ n, Later cached n → Later n generation → Matches status n) ∧
      (Later cached serial ∧ Later serial generation ∧ Later generation selected) ∧
      selected.selectedBackend u = status.backend := by
  obtain ⟨hlease, hlater, ⟨hcached, hgeneration⟩, hselected⟩ := (exec_inv hrun).log _ hreported
  refine ⟨hlease, ?_, hlater, hselected⟩
  exact fun n hn hn' => matches_between hn hn' hcached hgeneration.generation

/-- Everything at once, when the call returns. -/
def FreshOnReturn (u : UnicodeData) : Entry δ π → Prop
  | .reported status verified _ _ _ selected =>
    selected.selectedBackend u = status.backend ∧ Matches status selected ∧ verified = selected.event
  | _ => True

/-- Root is verified and cached. -/
def checking : List (Action Nat Answer (Request Nat) (Change Unit Nat)) :=
  .call 0 (.check phoneContext none none) :: List.replicate 13 (.run 0 { rootUid := true })

def returnedStale : Entry Unit Nat → Bool
  | .reported _ verified _ _ _ selected => verified ≠ selected.event
  | _ => false

/-- A reset comes between the reads of `cached_status`. -/
theorem reported_after_reset : ∃ t, exec (step (start .ascii) (environment .ascii)) rootSelected
      (checking ++ .call 0 .cachedStatus :: .run 0 {} :: resetting ++ List.replicate 4 (.run 0 {})) = some t ∧
    ∃ e ∈ t.shared.log, ¬FreshOnReturn .ascii e := by
  have hstale : (exec (step (start .ascii) (environment .ascii)) rootSelected
      (checking ++ .call 0 .cachedStatus :: .run 0 {} :: resetting ++ List.replicate 4 (.run 0 {}))).any
      (fun t => t.shared.log.any returnedStale) = true := by decide +kernel
  obtain ⟨t, ht, hlog⟩ := (Option.any_eq_true _ _).mp hstale
  obtain ⟨e, he, hreturned⟩ := List.any_eq_true.mp hlog
  refine ⟨t, ht, e, he, fun hfresh => ?_⟩
  cases e with
  | reported status verified cached serial generation selected =>
    exact of_decide_eq_true hreturned hfresh.2.2
  | handed facade executor selected current => cases hreturned
  | returned facade executor settled selected current => cases hreturned
  | reset lease replaced cleared seen => cases hreturned

def isReported : Entry Unit Nat → Bool
  | .reported .. => true
  | _ => false

/-- Without the reset the status is that of the device and of the mode. -/
theorem root_reported : ∃ (t : Pool Nat (PrivilegeManager Unit Nat) Answer Raised) (status : PrivilegeStatus)
    (verified : Nat) (cached serial generation selected : Now Unit Nat),
      .reported status verified cached serial generation selected ∈ t.shared.log ∧ verified = cached.event ∧
        selected.selectedBackend .ascii = status.backend := by
  have hreported : (exec (step (start .ascii) (environment .ascii)) rootSelected
      (checking ++ .call 0 .cachedStatus :: List.replicate 5 (.run 0 {}))).any
      (fun t => t.shared.log.any isReported) = true := by decide +kernel
  obtain ⟨t, ht, hlog⟩ := (Option.any_eq_true _ _).mp hreported
  obtain ⟨e, he, hentry⟩ := List.any_eq_true.mp hlog
  cases e with
  | reported status verified cached serial generation selected =>
    have hfresh := cachedStatus_reported ht he
    exact ⟨t, status, verified, cached, serial, generation, selected, he, hfresh.1.1, hfresh.2.2.2⟩
  | handed facade executor selected current => cases hentry
  | returned facade executor settled selected current => cases hentry
  | reset lease replaced cleared seen => cases hentry

end OpenAdb.Privilege.Cache
