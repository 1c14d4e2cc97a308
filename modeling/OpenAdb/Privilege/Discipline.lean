import OpenAdb.Privilege.Manager

namespace OpenAdb.Privilege.Discipline

open OpenAdb.Context.Device OpenAdb.Context.Device.DeviceManager OpenAdb.Lib.Effects OpenAdb.Lib.PyText
  OpenAdb.Lib.Threads OpenAdb.Lib.Threads.Program OpenAdb.Privilege.Manager
open OpenAdb.Backup.Names (safeFilename)
open OpenAdb.Settings.Values (Backend)

variable {δ π : Type} {u : UnicodeData} {l m n : Now δ π} {context : DeviceContext π}
  {lease : PrivilegeOperationLease} {status : PrivilegeStatus} {facade : Facade π}
  {s t : PrivilegeManager δ π}

/-- Events are replaced and set, and the generation of the device counts its changes. -/
structure Later (m n : Now δ π) : Prop where
  event : m.event ≤ n.event
  finished : m.finished <:+ n.finished
  device : Counts m.device n.device

theorem Later.refl (n : Now δ π) : Later n n := ⟨le_rfl, List.suffix_refl _, .refl _⟩

theorem Later.trans (h : Later l m) (h' : Later m n) : Later l n :=
  ⟨h.event.trans h'.event, h.finished.trans h'.finished, h.device.trans h'.device⟩

theorem Later.unset {event : Nat} (h : Later m n) (hn : event ∉ n.finished) : event ∉ m.finished :=
  fun hm => hn (h.finished.subset hm)

/-- An event that was replaced is set or about to be. -/
def Ordered (n : Now δ π) : Prop :=
  ∀ event, event ≤ n.event → event ∉ n.finished → event = n.event ∨ event ∈ n.resetting

/-- What `is_context_current` compares, but the kind, which may come from the form factor. -/
structure Current (u : UnicodeData) (context : DeviceContext π) (device : DeviceManager δ π) : Prop where
  generation : device.generation = context.generation
  serial : device.active.serial = context.serial
  mode : device.active.mode = context.mode
  transportId : device.active.transportId = context.transportId
  profileKey : orElse device.profileKey (safeFilename u device.active.serial) = context.profileKey
  paths : device.profilePaths = context.paths

theorem current_of_isContextCurrent [DecidableEq π] {device : DeviceManager δ π}
    (h : device.isContextCurrent u context = true) : Current u context device ∧ device.active.serial ≠ [] := by
  rw [isContextCurrent] at h
  split_ifs at h with hstale
  simp only [Bool.and_eq_true, decide_eq_true_eq] at h
  obtain ⟨⟨⟨⟨⟨hserial, hmode⟩, htransport⟩, hkey⟩, _⟩, hpaths⟩ := h
  obtain ⟨hgeneration, hempty⟩ := not_or.mp hstale
  refine ⟨⟨(not_not.mp hgeneration).symm, hserial.symm, hmode.symm, htransport.symm, hkey.symm, hpaths.symm⟩, ?_⟩
  intro hnil
  exact hempty (List.isEmpty_iff.mpr hnil)

/-- Between two moments of one generation the target is the same. -/
theorem sameTarget_between {d e f : DeviceManager δ π} (hde : Counts d e) (hef : Counts e f)
    (hgeneration : f.generation = d.generation) : SameTarget d e ∧ e.generation = d.generation := by
  have hsame : e.generation = d.generation :=
    Nat.le_antisymm (hef.generation.trans hgeneration.le) hde.generation
  exact ⟨hde.target hsame, hsame⟩

/-- A context that is current at two moments is current between them. -/
theorem current_between [DecidableEq π] (hlm : Later l m) (hmn : Later m n)
    (hl : l.device.isContextCurrent u context = true) (hn : n.device.isContextCurrent u context = true) :
    Current u context m.device := by
  obtain ⟨hcurrent, hserial⟩ := current_of_isContextCurrent hl
  have hgeneration := (current_of_isContextCurrent hn).1.generation
  obtain ⟨htarget, hsame⟩ := sameTarget_between hlm.device hmn.device (hgeneration.trans hcurrent.generation.symm)
  obtain ⟨hs, hmode, htransport⟩ := deviceIdentity_eq htarget.device hserial
  refine ⟨hsame.trans hcurrent.generation, hs.trans hcurrent.serial, hmode.trans hcurrent.mode,
    htransport.trans hcurrent.transportId, ?_, htarget.profilePaths.trans hcurrent.paths⟩
  rw [htarget.profileKey, hs]
  exact hcurrent.profileKey

theorem serial_of_identity {a b : DeviceInfo} (h : deviceIdentity b = deviceIdentity a) : b.serial = a.serial := by
  have hfst (i : DeviceInfo) : (deviceIdentity i).1 = i.serial := by
    rw [deviceIdentity]
    by_cases hempty : i.serial.isEmpty = true
    · rw [if_pos hempty]
      exact (List.isEmpty_iff.mp hempty).symm
    · rw [if_neg hempty]
  rw [← hfst a, ← hfst b, h]

/-- The status is one of the active device. -/
structure Matches (status : PrivilegeStatus) (n : Now δ π) : Prop where
  serial : n.device.active.serial = status.deviceSerial
  generation : some n.device.generation = status.deviceGeneration

theorem matches_between (hlm : Later l m) (hmn : Later m n) (hl : Matches status l)
    (hn : some n.device.generation = status.deviceGeneration) : Matches status m := by
  have hgeneration : n.device.generation = l.device.generation :=
    Option.some.inj (hn.trans hl.generation.symm)
  obtain ⟨htarget, hsame⟩ := sameTarget_between hlm.device hmn.device hgeneration
  refine ⟨(serial_of_identity htarget.device).trans hl.serial, ?_⟩
  rw [hsame]
  exact hl.generation

/-- The access mode that a facade was prepared under is in force: no reset has come to an end since
its lease was captured, and none has begun but one that is about to set the event. -/
structure InForce (u : UnicodeData) (facade : Facade π) (n : Now δ π) : Prop where
  unset : facade.backendCancelEvent ∉ n.finished
  unreplaced : facade.backendCancelEvent = n.event ∨ facade.backendCancelEvent ∈ n.resetting
  selected : n.selectedBackend u = facade.backend
  current : Current u facade.deviceContext n.device

/-- The cached status was verified under the current event. -/
structure Verified (s : PrivilegeManager δ π) (status : PrivilegeStatus) : Prop where
  event : s.verified = s.now.event
  lease : ⟨status.backend, s.verified⟩ ∈ s.leases
  published : ∃ n, Later n s.now ∧ Matches status n

structure Moves (s t : PrivilegeManager δ π) : Prop where
  now : Later s.now t.now
  leases : s.leases <:+ t.leases

theorem Verified.moves (h : Verified s status) (hmoves : Moves s t) (hverified : t.verified = s.verified)
    (hevent : t.now.event = s.now.event) : Verified t status := by
  obtain ⟨n, hn, hmatches⟩ := h.published
  refine ⟨?_, ?_, n, hn.trans hmoves.now, hmatches⟩
  · rw [hverified, hevent]
    exact h.event
  · rw [hverified]
    exact hmoves.leases.subset h.lease

variable [DecidableEq π]

/-- What the checks of a facade call saw. -/
structure Checked (u : UnicodeData) (facade : Facade π) (selected current : Now δ π) : Prop where
  ordered : Ordered selected
  captured : facade.backendCancelEvent ≤ selected.event
  backend : selected.selectedBackend u = facade.backend
  later : Later selected current
  between : Current u facade.deviceContext selected.device
  isCurrent : current.device.isContextCurrent u facade.deviceContext = true

theorem Checked.inForce {selected current : Now δ π} (h : Checked u facade selected current)
    (hunset : facade.backendCancelEvent ∉ selected.finished) : InForce u facade selected :=
  ⟨hunset, h.ordered _ h.captured hunset, h.backend, h.between⟩

/-- What holds of the history. -/
def Sound (u : UnicodeData) (leases : List PrivilegeOperationLease) : Entry δ π → Prop
  | .handed facade _ selected current => Checked u facade selected current ∧
    facade.backendCancelEvent ∉ selected.finished
  | .returned facade _ settled selected current => Checked u facade selected current ∧
    facade.backendCancelEvent ∉ settled.finished ∧ Later settled selected
  | .reset lease replaced cleared seen => replaced = lease.cancelEvent ∧ seen.event = lease.cancelEvent ∧
    lease.cancelEvent ∉ seen.finished ∧ seen.selectedBackend u = lease.backend ∧
      ∀ verified, cleared = some verified → verified = lease.cancelEvent
  | .reported status verified cached serial generation selected =>
    (verified = cached.event ∧ ⟨status.backend, verified⟩ ∈ leases) ∧
      (Later cached serial ∧ Later serial generation ∧ Later generation selected) ∧
      (Matches status cached ∧ Matches status generation) ∧ selected.selectedBackend u = status.backend

theorem Sound.mono {leases leases' : List PrivilegeOperationLease} (hsuffix : leases <:+ leases') {e : Entry δ π}
    (h : Sound u leases e) : Sound u leases' e := by
  cases e with
  | reported status verified cached serial generation selected =>
    exact ⟨⟨h.1.1, hsuffix.subset h.1.2⟩, h.2⟩
  | handed facade executor selected current => exact h
  | returned facade executor settled selected current => exact h
  | reset lease replaced cleared seen => exact h

/-- A facade was prepared under a lease, for a context that was current. -/
structure Prepared (u : UnicodeData) (s : PrivilegeManager δ π) (facade : Facade π) : Prop where
  lease : ⟨facade.backend, facade.backendCancelEvent⟩ ∈ s.leases
  backend : facade.backend ≠ .standard
  current : ∃ n, Later n s.now ∧ n.device.isContextCurrent u facade.deviceContext = true

structure Inv (u : UnicodeData) (s : PrivilegeManager δ π) : Prop where
  ordered : Ordered s.now
  cached : ∀ status, s.cached = some status → Verified s status
  leases : ∀ lease ∈ s.leases, lease.cancelEvent ≤ s.now.event
  facades : ∀ facade ∈ s.facades, Prepared u s facade
  log : ∀ e ∈ s.log, Sound u s.leases e

theorem Prepared.moves (h : Prepared u s facade) (hmoves : Moves s t) : Prepared u t facade := by
  obtain ⟨n, hn, hcurrent⟩ := h.current
  exact ⟨hmoves.leases.subset h.lease, h.backend, n, hn.trans hmoves.now, hcurrent⟩

/-- The discipline of the lock sections. -/
def discipline (δ π : Type) [DecidableEq π] (u : UnicodeData) : Lib.Threads.Discipline (PrivilegeManager δ π) where
  Inv := Inv u
  Later := Moves
  refl _ := ⟨.refl _, List.suffix_refl _⟩
  trans _ _ _ h h' := ⟨h.now.trans h'.now, h.leases.trans h'.leases⟩

/-- What the environment and the sections that leave the cache alone keep. -/
theorem Inv.moves (h : Inv u s) (hmoves : Moves s t) (hordered : Ordered t.now) (hcached : t.cached = s.cached)
    (hverified : t.verified = s.verified) (hevent : t.now.event = s.now.event)
    (hleases : ∀ lease ∈ t.leases, lease ∈ s.leases ∨ lease.cancelEvent = t.now.event)
    (hfacades : ∀ facade ∈ t.facades, facade ∈ s.facades ∨ Prepared u t facade)
    (hlog : ∀ e ∈ t.log, e ∈ s.log ∨ Sound u t.leases e) : Inv u t := by
  refine ⟨hordered, ?_, ?_, ?_, ?_⟩
  · intro status hstatus
    rw [hcached] at hstatus
    exact (h.cached status hstatus).moves hmoves hverified hevent
  · intro lease hlease
    obtain hold | hnew := hleases lease hlease
    · exact (h.leases lease hold).trans hmoves.now.event
    · exact hnew.le
  · intro facade hfacade
    obtain hold | hnew := hfacades facade hfacade
    · exact (h.facades facade hold).moves hmoves
    · exact hnew
  · intro e he
    obtain hold | hnew := hlog e he
    · exact (h.log e hold).mono hmoves.leases
    · exact hnew

/-- An entry of the history. -/
theorem Inv.note (h : Inv u s) {e : Entry δ π} (he : Sound u s.leases e) :
    Inv u { s with log := s.log ++ [e] } ∧ Moves s { s with log := s.log ++ [e] } := by
  have hmoves : Moves s { s with log := s.log ++ [e] } := ⟨.refl _, List.suffix_refl _⟩
  refine ⟨h.moves hmoves h.ordered rfl rfl rfl (fun _ => .inl) (fun _ => .inl) ?_, hmoves⟩
  intro e' he'
  obtain hold | hnew := List.mem_append.mp he'
  · exact .inl hold
  · rw [List.mem_singleton.mp hnew]
    exact .inr he

theorem replaceEvent_keeps (h : Inv u s) : Inv u s.replaceEvent ∧ Moves s s.replaceEvent := by
  have hmoves : Moves s s.replaceEvent := ⟨⟨Nat.le_succ _, List.suffix_refl _, .refl _⟩, List.suffix_refl _⟩
  refine ⟨⟨?_, nofun, ?_, ?_, h.log⟩, hmoves⟩
  · intro event hle hunset
    by_cases hnew : event = s.now.event + 1
    · exact .inl hnew
    · have hold : event ≤ s.now.event := by
        change event ≤ s.now.event + 1 at hle
        omega
      obtain rfl | hresetting := h.ordered event hold hunset
      · exact .inr List.mem_cons_self
      · exact .inr (List.mem_cons_of_mem _ hresetting)
  · exact fun lease hlease => (h.leases lease hlease).trans (Nat.le_succ _)
  · exact fun facade hfacade => (h.facades facade hfacade).moves hmoves

theorem setEvent_keeps (h : Inv u s) (event : Nat) :
    Inv u (s.setEvent event) ∧ Moves s (s.setEvent event) := by
  have hmoves : Moves s (s.setEvent event) := ⟨⟨le_rfl, List.suffix_cons .., .refl _⟩, List.suffix_refl _⟩
  refine ⟨h.moves hmoves ?_ rfl rfl rfl (fun _ => .inl) (fun _ => .inl) (fun _ => .inl), hmoves⟩
  intro other hle hunset
  have hne : other ≠ event := fun heq => hunset (heq ▸ List.mem_cons_self)
  obtain hcurrent | hresetting := h.ordered other hle (fun hold => hunset (List.mem_cons_of_mem _ hold))
  · exact .inl hcurrent
  · exact .inr ((List.mem_erase_of_ne hne).mpr hresetting)

theorem replaceEventFor_keeps (h : Inv u s) (lease : PrivilegeOperationLease) :
    Inv u (s.replaceEventFor u lease).2 ∧ Moves s (s.replaceEventFor u lease).2 := by
  rw [PrivilegeManager.replaceEventFor]
  split_ifs with hstale
  · exact ⟨h, .refl _, List.suffix_refl _⟩
  · rw [not_or, not_or, not_not, not_not] at hstale
    obtain ⟨hevent, hunset, hbackend⟩ := hstale
    obtain ⟨hreplaced, hmoves⟩ := replaceEvent_keeps h
    have hsound : Sound u s.replaceEvent.leases
        (.reset lease s.now.event (s.cached.map (fun _ => s.verified)) s.now) := by
      refine ⟨hevent.symm, hevent.symm, hunset, hbackend, ?_⟩
      intro verified hverified
      obtain ⟨status, hstatus, rfl⟩ := Option.map_eq_some_iff.mp hverified
      rw [(h.cached status hstatus).event, hevent]
    exact ⟨(hreplaced.note hsound).1, hmoves.now, hmoves.leases⟩

theorem publish_keeps (h : Inv u s) (hlease : lease ∈ s.leases) (hbound : status.deviceGeneration.isSome = true) :
    Inv u (s.publish u status lease) ∧ Moves s (s.publish u status lease) := by
  rw [PrivilegeManager.publish]
  split_ifs with hstale
  · exact ⟨h, .refl _, List.suffix_refl _⟩
  · simp only [not_or, not_not, Bool.and_eq_true] at hstale
    obtain ⟨_, hevent, _, hbackend, hserial, hgeneration⟩ := hstale
    refine ⟨⟨h.ordered, ?_, h.leases, ?_, h.log⟩, .refl _, List.suffix_refl _⟩
    · intro status' hstatus'
      cases hstatus'
      refine ⟨hevent, ?_, s.now, .refl _, ?_, ?_⟩
      · rw [← hbackend]
        exact hlease
      · exact (of_decide_eq_true hserial).symm
      · obtain ⟨generation, hsome⟩ := Option.isSome_iff_exists.mp hbound
        rw [Now.generationMatches, hsome] at hgeneration
        rw [hsome, of_decide_eq_true hgeneration]
    · exact fun facade hfacade => ⟨(h.facades facade hfacade).lease, (h.facades facade hfacade).backend,
        (h.facades facade hfacade).current⟩

/-- The setting is written, or the device moves on. -/
theorem environment_keeps [DecidableEq δ] {change : Change δ π} (h : Inv u s)
    (hchange : environment u s change = some t) : Inv u t ∧ Moves s t := by
  cases change with
  | select value =>
    rw [environment] at hchange
    cases hchange
    have hmoves : Moves s { s with now := { s.now with setting := value } } :=
      ⟨⟨le_rfl, List.suffix_refl _, .refl _⟩, List.suffix_refl _⟩
    exact ⟨h.moves hmoves h.ordered rfl rfl rfl (fun _ => .inl) (fun _ => .inl) (fun _ => .inl), hmoves⟩
  | device a =>
    rw [environment] at hchange
    obtain ⟨device, hstep, rfl⟩ := Option.map_eq_some_iff.mp hchange
    have hmoves : Moves s { s with now := { s.now with device } } :=
      ⟨⟨le_rfl, List.suffix_refl _, step_counts hstep⟩, List.suffix_refl _⟩
    exact ⟨h.moves hmoves h.ordered rfl rfl rfl (fun _ => .inl) (fun _ => .inl) (fun _ => .inl), hmoves⟩

theorem init_inv (setting : Option PyObject) (device : DeviceManager δ π) : Inv u (Manager.init setting device) := by
  rw [Manager.init]
  refine ⟨?_, nofun, ?_, ?_, ?_⟩
  · exact fun event hle _ => .inl (Nat.le_zero.mp hle)
  · exact fun lease hlease => absurd hlease List.not_mem_nil
  · exact fun facade hfacade => absurd hfacade List.not_mem_nil
  · exact fun e he => absurd he List.not_mem_nil

end OpenAdb.Privilege.Discipline
