import Mathlib.Data.List.Dedup
import OpenAdb.Wireless.QrPairing

namespace OpenAdb.Wireless.QrReadiness

open OpenAdb.Lib.PyText OpenAdb.Lib.PyLines
open OpenAdb.Lib.SortedRows OpenAdb.Lib.TextOrder
open OpenAdb.Lib.Effects OpenAdb.Lib.EventLog
open OpenAdb.Commands.Results (CommandResult)
open OpenAdb.Wireless.Endpoints OpenAdb.Wireless.MdnsServices OpenAdb.Wireless.QrPairing

def isPair : Event → Bool
  | .ran (.pair _ _) _ => true
  | _ => false

def isConnect : Event → Bool
  | .ran (.connect _) _ => true
  | _ => false

/-- The services that an answer has advertised. -/
def servicesOf (u : Tables) : Event → List Service
  | .browse (.ok services) => services
  | .ran .mdnsServices (.ok result) => if result.success then parseMdnsServices u result.stdout else []
  | _ => []

def Advertised (u : Tables) (log : List Event) (service : Service) : Prop := ∃ e ∈ log, service ∈ servicesOf u e

def deviceRows (u : Tables) (stdout : Text) : List Device := (splitlines stdout).filterMap (deviceRow u)

section Quiet

variable {α : Type} {past log : List Event} {e : Event}

/-- Since the past nothing was paired or connected. -/
def Quiet (past log : List Event) : Prop :=
  ∃ later, log = later ++ past ∧ ∀ e ∈ later, isPair e = false ∧ isConnect e = false

theorem Quiet.refl (log : List Event) : Quiet log log := ⟨[], rfl, by simp⟩

theorem Quiet.cons (h : Quiet past log) (hpair : isPair e = false) (hconnect : isConnect e = false) :
    Quiet past (e :: log) := by
  obtain ⟨later, rfl, hlater⟩ := h
  exact ⟨e :: later, rfl, List.forall_mem_cons.mpr ⟨⟨hpair, hconnect⟩, hlater⟩⟩

theorem Quiet.suffix (h : Quiet past log) : past <:+ log := by
  obtain ⟨later, rfl, -⟩ := h
  exact List.suffix_append later past

theorem Quiet.counts (h : Quiet past log) :
    log.countP isPair = past.countP isPair ∧ log.countP isConnect = past.countP isConnect := by
  obtain ⟨later, rfl, hlater⟩ := h
  have hpairs : later.countP isPair = 0 := by
    rw [List.countP_eq_zero]
    exact fun e he => by rw [(hlater e he).1]; exact Bool.false_ne_true
  have hconnects : later.countP isConnect = 0 := by
    rw [List.countP_eq_zero]
    exact fun e he => by rw [(hlater e he).2]; exact Bool.false_ne_true
  rw [List.countP_append, List.countP_append, hpairs, hconnects, Nat.zero_add, Nat.zero_add]
  exact ⟨rfl, rfl⟩

variable {u : Tables} {service : Service}

theorem Advertised.mono (h : Advertised u past service) (hlog : past <:+ log) : Advertised u log service := by
  obtain ⟨e, hmem, he⟩ := h
  exact ⟨e, hlog.subset hmem, he⟩

variable {net : Network} {a : α} {next atEnd : Step α} {P : List Event → Prop} {Q : α → List Event → Prop}
variable {E : Stop → List Event → Prop}

/-- A look at the cancel event or at the clock leaves the condition as it is. -/
def Looks (P : List Event → Prop) : Prop :=
  ∀ log, P log → (∀ b, P (.check b :: log)) ∧ ∀ b, P (.clock b :: log)

theorem Looks.quiet : Looks (Quiet past) := fun _ h => ⟨fun _ => h.cons rfl rfl, fun _ => h.cons rfl rfl⟩

theorem Looks.and {R : List Event → Prop} (hP : Looks P) (hR : ∀ e log, R log → R (e :: log)) :
    Looks fun log => P log ∧ R log := fun log h =>
  ⟨fun b => ⟨(hP log h.1).1 b, hR _ log h.2⟩, fun b => ⟨(hP log h.1).2 b, hR _ log h.2⟩⟩

theorem advertised_cons {services : List Service} (e : Event) (log : List Event)
    (h : ∀ service ∈ services, Advertised u log service) :
    ∀ service ∈ services, Advertised u (e :: log) service :=
  fun service hs => (h service hs).mono (List.suffix_cons _ _)

theorem unlessCancelled_meets (hP : Looks P) (ha : ∀ log, P log → Q a log) (hnext : Meets P next Q E) :
    Meets P (unlessCancelled net a next) Q E := by
  refine Meets.bind (Q := fun _ => P) (Meets.look fun log hlog => (hP log hlog).1 _) fun set => ?_
  exact Meets.ite (fun _ => Meets.pure ha) fun _ => hnext

theorem unlessLate_meets (hP : Looks P) (hend : Meets P atEnd Q E) (hnext : Meets P next Q E) :
    Meets P (unlessLate net atEnd next) Q E := by
  refine Meets.bind (Q := fun _ => P) (Meets.look fun log hlog => (hP log hlog).2 _) fun late => ?_
  exact Meets.ite (fun _ => hend) fun _ => hnext

/-- What comes after the look knows that the event was not set at it. -/
theorem unlessCancelled_sure (ha : ∀ log, P log → Q a (.check true :: log))
    (hnext : Meets (fun log => ∃ before, log = .check false :: before ∧ P before ∧ net.cancel.isSet before = false)
      next Q E) : Meets P (unlessCancelled net a next) Q E := by
  refine Meets.bind (Q := fun set log => ∃ before, log = .check set :: before ∧ P before ∧
    net.cancel.isSet before = set) (Meets.look fun log hlog => ⟨log, rfl, hlog, rfl⟩) fun set => ?_
  cases set with
  | false => exact hnext
  | true =>
    refine Meets.pure fun log hlog => ?_
    obtain ⟨before, rfl, hbefore, -⟩ := hlog
    exact ha before hbefore

end Quiet

section Answers

/-- A step that neither pairs nor connects, with what its result says about the log. -/
def Learns {α : Type} (past : List Event) (x : Step α) (R : α → List Event → Prop) : Prop :=
  Meets (Quiet past) x (fun a log => Quiet past log ∧ R a log) (fun _ => Quiet past)

variable (u : Tables) (net : Network) (past : List Event)

theorem quiet_none {β : Type} {R : List Event → β → Prop} (log : List Event) (h : Quiet past log) :
    Quiet past log ∧ ∀ x ∈ ([] : List β), R log x := ⟨h, by simp⟩

theorem discover_meets : Learns past (discoverWirelessMdnsServices u net)
    fun services log => ∀ service ∈ services, Advertised u log service := by
  refine unlessCancelled_meets Looks.quiet (quiet_none past) ?_
  refine Meets.bind (Q := fun browsed log => Quiet past log ∧ ∀ service ∈ browsed, Advertised u log service)
    (Meets.ask ?_ ?_) fun browsed => ?_
  · intro log services hlog _
    exact ⟨hlog.cons rfl rfl, fun service hs => ⟨_, List.mem_cons_self, hs⟩⟩
  · exact fun log e hlog _ => hlog.cons rfl rfl
  refine unlessCancelled_meets (Looks.quiet.and advertised_cons) (fun log h => quiet_none past log h.1) ?_
  refine Meets.bind (Q := fun result log => Quiet past log ∧ ∀ service ∈
    browsed ++ (if result.success then parseMdnsServices u result.stdout else []), Advertised u log service)
    (Meets.ask ?_ ?_) fun result => ?_
  · intro log result hlog _
    refine ⟨hlog.1.cons rfl rfl, fun service hs => ?_⟩
    obtain hs | hs := List.mem_append.mp hs
    · exact advertised_cons _ log hlog.2 service hs
    · exact ⟨_, List.mem_cons_self, hs⟩
  · exact fun log e hlog _ => hlog.1.cons rfl rfl
  refine unlessCancelled_meets (Looks.quiet.and advertised_cons) (fun log h => quiet_none past log h.1) ?_
  exact Meets.pure fun log h => ⟨h.1, fun service hs => h.2 service (mem_dedupe hs)⟩

/-- A candidate under which a connect service was advertised. -/
def Candidate (pairingTarget : Text) (log : List Event) (candidate : Text) : Prop :=
  candidate ≠ [] ∧ ∃ service, Advertised u log service ∧ Eligible u pairingTarget service ∧ Leads u service candidate

variable {u net past} {pairingTarget : Text} {log : List Event}

theorem Candidate.mono {c : Text} (h : Candidate u pairingTarget past c) (hlog : past <:+ log) :
    Candidate u pairingTarget log c := by
  obtain ⟨hne, service, hadvertised, h⟩ := h
  exact ⟨hne, service, hadvertised.mono hlog, h⟩

variable (u net past) (pairingTarget)

theorem candidates_meets : Learns past (wirelessConnectCandidates u net pairingTarget)
    fun candidates log => ∀ c ∈ candidates, Candidate u pairingTarget log c := by
  refine Meets.bind (discover_meets u net past) fun services => Meets.pure fun log hlog => ⟨hlog.1, fun c hc => ?_⟩
  obtain ⟨hne, service, hmem, heligible, hleads⟩ := mem_candidates hc
  exact ⟨hne, service, hlog.2 service hmem, heligible, hleads⟩

theorem waitForCandidates_meets (fuel : Nat) :
    Learns past (waitForWirelessConnectCandidates u net pairingTarget fuel)
      fun candidates log => ∀ c ∈ candidates, Candidate u pairingTarget log c := by
  induction fuel with
  | zero => exact Meets.raise fun _ h => h
  | succ fuel ih =>
    refine unlessLate_meets Looks.quiet (Meets.pure (quiet_none past))
      (unlessCancelled_meets Looks.quiet (quiet_none past) ?_)
    refine Meets.bind (candidates_meets u net past pairingTarget) fun candidates => Meets.ite ?_ ?_
    · exact fun _ => Meets.pure fun _ h => h
    · exact fun _ => ih.pre fun _ h => h.1

/-- A listing since the past has the device, and the cancel event was not set before it. -/
def Shown (log : List Event) (device : Device) : Prop :=
  ∃ later listed before, log = later ++ .ran .devices (.ok listed) :: before ∧ Quiet past before ∧
    net.cancel.isSet before = false ∧ device ∈ deviceRows u listed.stdout

variable {u net past}

theorem Shown.cons {device : Device} {e : Event} (h : Shown u net past log device) :
    Shown u net past (e :: log) device := by
  obtain ⟨later, listed, before, rfl, h⟩ := h
  exact ⟨e :: later, listed, before, rfl, h⟩

variable (u net past)

/-- Only rows of the lines are collected. -/
theorem collectDevices_meets {P : List Event → Prop} (hP : Looks P) (rows : List Device) (lines : List Text)
    (devices : List Device) (hdevices : ∀ d ∈ devices, d ∈ rows)
    (hlines : ∀ line ∈ lines, ∀ d ∈ deviceRow u line, d ∈ rows) :
    Meets P (collectDevices u net devices lines) (fun found log => P log ∧ ∀ d ∈ found, d ∈ rows) (fun _ => P) := by
  induction lines generalizing devices with
  | nil => exact Meets.pure fun log h => ⟨h, hdevices⟩
  | cons line lines ih =>
    obtain ⟨hline, hlines⟩ := List.forall_mem_cons.mp hlines
    refine unlessCancelled_meets hP (fun log h => ⟨h, by simp⟩) (ih _ (fun d hd => ?_) hlines)
    obtain hd | hd := List.mem_append.mp hd
    · exact hdevices d hd
    · exact hline d (Option.mem_toList.mp hd)

theorem listDevices_meets : Learns past (listDevices u net)
    fun devices log => ∀ d ∈ devices, Shown u net past log d := by
  refine unlessCancelled_meets Looks.quiet (quiet_none past) ?_
  refine Meets.bind (Q := fun listed log => ∃ before, log = .ran .devices (.ok listed) :: before ∧ Quiet past before)
    (Meets.ask ?_ ?_) fun listed => ?_
  · exact fun log listed hlog _ => ⟨log, rfl, hlog⟩
  · exact fun log e hlog _ => hlog.cons rfl rfl
  have hquiet : ∀ log, (∃ before, log = .ran .devices (.ok listed) :: before ∧ Quiet past before) → Quiet past log := by
    rintro log ⟨before, rfl, hbefore⟩
    exact hbefore.cons rfl rfl
  refine unlessCancelled_sure (fun log h => quiet_none past _ ((hquiet log h).cons rfl rfl)) ?_
  -- The look after the listing tells that the event was not set before the listing either.
  have hshown : ∀ log, (∃ mid, log = .check false :: mid ∧
      (∃ before, mid = .ran .devices (.ok listed) :: before ∧ Quiet past before) ∧ net.cancel.isSet mid = false) →
      Quiet past log ∧ ∀ d ∈ deviceRows u listed.stdout, Shown u net past log d := by
    rintro log ⟨mid, rfl, ⟨before, rfl, hbefore⟩, hclear⟩
    refine ⟨(hbefore.cons rfl rfl).cons rfl rfl, fun d hd => ⟨[.check false], listed, before, rfl, hbefore, ?_, hd⟩⟩
    exact net.cancel.isSet_suffix (List.suffix_cons _ _) hclear
  refine Meets.ite (fun _ => Meets.pure fun log h => quiet_none past log (hshown log h).1) fun _ => ?_
  refine Meets.mono (collectDevices_meets u net (P := fun log => Quiet past log ∧
      ∀ d ∈ deviceRows u listed.stdout, Shown u net past log d) ?_ (deviceRows u listed.stdout)
    (splitlines listed.stdout) [] (by simp) fun line hline d hd => List.mem_filterMap.mpr ⟨line, hline, hd⟩)
    hshown (fun found log h => ⟨h.1.1, fun d hd => h.1.2 d (h.2 d hd)⟩) (fun _ log h => h.1)
  exact Looks.quiet.and fun e log h d hd => (h d hd).cons

/-- The serial of a device that is ready now. -/
def ShownSerial (log : List Event) (serial : Text) : Prop := Shown u net past log ⟨serial, "device".toList⟩

theorem serials_meets : Learns past (wirelessDeviceSerials u net)
    fun serials log => ∀ serial ∈ serials, ShownSerial u net past log serial := by
  refine Meets.bind (listDevices_meets u net past) fun devices => Meets.pure fun log hlog => ⟨hlog.1, ?_⟩
  intro serial hserial
  obtain ⟨device, hdevice, rfl⟩ := List.mem_map.mp (List.mem_dedup.mp hserial)
  obtain ⟨hmem, hstate⟩ := List.mem_filter.mp hdevice
  rw [Bool.and_eq_true, decide_eq_true_eq] at hstate
  have h := hlog.2 device hmem
  rw [ShownSerial, ← hstate.1]
  exact h

/-- A serial that matches one of the targets was shown since the past. -/
def Matched (targets : List Text) (log : List Event) (serial : Text) : Prop :=
  serial ≠ [] → ShownSerial u net past log serial ∧
    ∃ target ∈ targets, wirelessSerialMatchesExpected u serial target = true

theorem newSerial_meets {targets : List Text} (hne : targets ≠ []) (before : List Text) :
    Learns past (newWirelessDeviceSerial u net before targets)
      fun serial log => Matched u net past targets log serial := by
  have hnone : ∀ log, Quiet past log → Quiet past log ∧ Matched u net past targets log [] :=
    fun log h => ⟨h, fun hne => absurd rfl hne⟩
  refine unlessCancelled_meets Looks.quiet hnone ?_
  refine Meets.bind (serials_meets u net past) fun current => ?_
  refine unlessCancelled_meets (Looks.quiet.and fun e log h s hs => (h s hs).cons) (fun log h => hnone log h.1) ?_
  refine Meets.ite (fun hnil => absurd hnil hne) fun _ => Meets.pure fun log hlog => ?_
  cases hfound : (stableSort textLess id current).find? (fun serial =>
      targets.any fun target => wirelessSerialMatchesExpected u serial target) with
  | none => exact hnone log hlog.1
  | some serial =>
    refine ⟨hlog.1, fun _ => ⟨hlog.2 serial ?_, ?_⟩⟩
    · exact (stableSort_perm _ _ _).mem_iff.mp (List.mem_of_find?_eq_some hfound)
    · exact List.any_eq_true.mp (List.find?_some (p := fun serial =>
        targets.any fun target => wirelessSerialMatchesExpected u serial target) hfound)

theorem waitForDevice_meets {targets : List Text} (hne : targets ≠ []) (before : List Text) (fuel : Nat) :
    Learns past (waitForNewWirelessDevice u net before targets fuel)
      fun serial log => Matched u net past targets log serial := by
  have hnone : ∀ log, Quiet past log → Quiet past log ∧ Matched u net past targets log [] :=
    fun log h => ⟨h, fun hne => absurd rfl hne⟩
  induction fuel with
  | zero => exact Meets.raise fun _ h => h
  | succ fuel ih =>
    refine unlessLate_meets Looks.quiet (Meets.pure hnone) (unlessCancelled_meets Looks.quiet hnone ?_)
    refine Meets.bind (newSerial_meets u net past hne before) fun serial => Meets.ite ?_ ?_
    · exact fun _ => Meets.pure fun _ h => h
    · exact fun _ => ih.pre fun _ h => h.1

end Answers

section Connection

variable (u : Tables) (net : Network) (base : List Event) (pairingTarget : Text)

/-- The log goes on from the base, with at most one pair and enough connects left. -/
structure Within (left : Nat) (log : List Event) : Prop where
  suffix : base <:+ log
  pairs : log.countP isPair ≤ 1
  connects : log.countP isConnect + left ≤ maxAttempts

/-- A listing after the base shows the serial under which a connect service was advertised before. -/
def ReadyAfter (log : List Event) (serial : Text) : Prop :=
  ∃ later listed before candidate, log = later ++ .ran .devices (.ok listed) :: before ∧ base <:+ before ∧
    net.cancel.isSet before = false ∧ ⟨serial, "device".toList⟩ ∈ deviceRows u listed.stdout ∧
    Candidate u pairingTarget before candidate ∧ wirelessSerialMatchesExpected u serial candidate = true

/-- A success names a serial that is ready. -/
def Reported (result : CommandResult) (log : List Event) : Prop :=
  result.success = true → ∃ serial, ReadyAfter u net base pairingTarget log serial ∧
    connectedDevice serial <:+ result.stdout

variable {u net base pairingTarget} {left : Nat} {past log : List Event} {result : CommandResult} {e : Event}

theorem Within.quiet (h : Within base left past) (hquiet : Quiet past log) : Within base left log := by
  obtain ⟨hpairs, hconnects⟩ := hquiet.counts
  exact ⟨h.suffix.trans hquiet.suffix, hpairs ▸ h.pairs, hconnects ▸ h.connects⟩

theorem Within.looks : Looks (Within base left) := fun log h =>
  ⟨fun _ => h.quiet ((Quiet.refl log).cons rfl rfl), fun _ => h.quiet ((Quiet.refl log).cons rfl rfl)⟩

theorem Within.le {less : Nat} (h : Within base left log) (hle : less ≤ left) : Within base less log :=
  ⟨h.suffix, h.pairs, (Nat.add_le_add_left hle _).trans h.connects⟩

theorem Reported.failure (h : result.success = false) : Reported u net base pairingTarget result log := by
  intro hsuccess
  rw [h] at hsuccess
  cases hsuccess

theorem Matched.ready {targets : List Text} {serial : Text} (h : Matched u net past targets log serial)
    (hne : serial ≠ []) (hbase : base <:+ past) (htargets : ∀ c ∈ targets, Candidate u pairingTarget past c) :
    ReadyAfter u net base pairingTarget log serial := by
  obtain ⟨⟨later, listed, before, hlog, hquiet, hclear, hrow⟩, target, hmem, hmatch⟩ := h hne
  exact ⟨later, listed, before, target, hlog, hbase.trans hquiet.suffix, hclear, hrow,
    (htargets target hmem).mono hquiet.suffix, hmatch⟩

theorem ReadyAfter.strip {serial : Text} (h : ReadyAfter u net base pairingTarget log serial) :
    ReadyAfter u net base (strip u.toUnicodeData pairingTarget) log serial := by
  obtain ⟨later, listed, before, candidate, hlog, hbase, hclear, hrow, ⟨hne, service, hadvertised, heligible, hleads⟩,
    hmatch⟩ := h
  refine ⟨later, listed, before, candidate, hlog, hbase, hclear, hrow, ⟨hne, service, hadvertised, ?_, hleads⟩, hmatch⟩
  exact ⟨heligible.type, heligible.target, by rw [mdnsTargetHost_strip]; exact heligible.host⟩

/-- What holds at the start of a call may be used as its past. -/
theorem meets_of_past {α : Type} {x : Step α} {P : List Event → Prop} {Q : α → List Event → Prop}
    {E : Stop → List Event → Prop} (h : ∀ past, P past → Meets (Quiet past) x Q E) : Meets P x Q E :=
  fun log hlog => h log hlog log (Quiet.refl log)

/-- The state of the connection loop between its steps. -/
def Going (u : Tables) (base : List Event) (pairingTarget : Text) (targets : List Text) (left : Nat)
    (log : List Event) : Prop :=
  Within base left log ∧ ∀ c ∈ targets, Candidate u pairingTarget log c

theorem Going.quiet {targets : List Text} (h : Going u base pairingTarget targets left past)
    (hquiet : Quiet past log) : Going u base pairingTarget targets left log :=
  ⟨h.1.quiet hquiet, fun c hc => (h.2 c hc).mono hquiet.suffix⟩

theorem Going.looks {targets : List Text} : Looks (Going u base pairingTarget targets left) := fun log h =>
  ⟨fun _ => h.quiet ((Quiet.refl log).cons rfl rfl), fun _ => h.quiet ((Quiet.refl log).cons rfl rfl)⟩

theorem Matched.looks {targets : List Text} {serial : Text} :
    Looks fun log => Quiet past log ∧ Matched u net past targets log serial :=
  Looks.quiet.and fun _ _ h hne => (h hne).imp_left Shown.cons

/-- The last part of a joined text ends it. -/
theorem suffix_joined (part : Text) {last : Text} (h : last ≠ []) :
    last <:+ ['\n'].intercalate ([part, last].filter (· ≠ [])) := by
  by_cases hpart : part = []
  · simp [hpart, h, List.intercalate]
  · exact ⟨part ++ ['\n'], by simp [hpart, h, List.intercalate]⟩

variable (u net base pairingTarget)

/-- How the connection ends. -/
def Ends (result : CommandResult) (log : List Event) : Prop :=
  Within base 0 log ∧ Reported u net base pairingTarget result log

theorem connectWirelessTarget_meets (targets : List Text) (target : Text) :
    Meets (Going u base pairingTarget targets (left + 1)) (connectWirelessTarget u net target)
      (fun _ => Going u base pairingTarget targets left) (fun _ => Within base 0) := by
  have hran : ∀ log answer, Within base (left + 1) log →
      Within base left (.ran (.connect (strip u.toUnicodeData target)) answer :: log) := by
    intro log answer h
    refine ⟨h.suffix.trans (List.suffix_cons _ _), ?_, ?_⟩
    · rw [List.countP_cons_of_neg (by exact Bool.false_ne_true)]
      exact h.pairs
    · rw [List.countP_cons_of_pos rfl, Nat.add_assoc, Nat.add_comm 1]
      exact h.connects
  refine Meets.require_bind (fun _ => ?_) fun _ log h => h.1.le (Nat.zero_le _)
  refine Meets.bind (Q := fun _ => Going u base pairingTarget targets left) (Meets.ask ?_ ?_)
    fun result => Meets.pure fun _ h => h
  · exact fun log answer h _ => ⟨hran log _ h.1, fun c hc => (h.2 c hc).mono (List.suffix_cons _ _)⟩
  · exact fun log stop h _ => (hran log _ h.1).le (Nat.zero_le _)

theorem connectionFailed_meets {s : Attempts} (hlast : ∀ r ∈ s.lastResult, r.success = false) :
    Meets (Within base left) (connectionFailed net s) (Ends u net base pairingTarget) (fun _ => Within base 0) := by
  refine unlessCancelled_meets Within.looks (fun log h => ⟨h.le (Nat.zero_le _), Reported.failure rfl⟩) ?_
  cases hs : s.lastResult with
  | some result => exact Meets.pure fun log h => ⟨h.le (Nat.zero_le _), Reported.failure (hlast result hs)⟩
  | none => exact Meets.pure fun log h => ⟨h.le (Nat.zero_le _), Reported.failure rfl⟩

section Pool

variable {pool : List Text} (hpool : pool ≠ []) (before : List Text) (fuel : Nat)

include hpool

theorem recheckDevice_meets {next : Step CommandResult}
    (hnext : Meets (Going u base pairingTarget pool left) next (Ends u net base pairingTarget) (fun _ => Within base 0)) :
    Meets (Going u base pairingTarget pool left) (recheckDevice u net before pool result next)
      (Ends u net base pairingTarget) (fun _ => Within base 0) := by
  refine meets_of_past fun past hpast => ?_
  refine Meets.bind ((newSerial_meets u net past hpool before).weaken fun _ log h =>
    (hpast.1.quiet h).le (Nat.zero_le _)) fun serial => ?_
  refine unlessCancelled_meets Matched.looks
    (fun log h => ⟨(hpast.1.quiet h.1).le (Nat.zero_le _), Reported.failure rfl⟩) (Meets.ite ?_ ?_)
  · refine fun hne => Meets.pure fun log h => ⟨(hpast.1.quiet h.1).le (Nat.zero_le _), fun _ => ?_⟩
    exact ⟨serial, h.2.ready hne hpast.1.suffix hpast.2, List.suffix_rfl⟩
  · exact fun _ => hnext.pre fun log h => hpast.quiet h.1

theorem attempt_meets (target : Text) {next : CommandResult → Step CommandResult}
    (hnext : ∀ result, result.success = false → Meets (Going u base pairingTarget pool left) (next result)
      (Ends u net base pairingTarget) (fun _ => Within base 0)) :
    Meets (Going u base pairingTarget pool (left + 1)) (attempt u net fuel before pool target next)
      (Ends u net base pairingTarget) (fun _ => Within base 0) := by
  refine Meets.bind (connectWirelessTarget_meets u net base pairingTarget pool target) fun result => ?_
  refine unlessCancelled_meets Going.looks (fun log h => ⟨h.1.le (Nat.zero_le _), Reported.failure rfl⟩) ?_
  refine Meets.ite (fun hsuccess => ?_) fun hfailure => ?_
  · refine meets_of_past fun past hpast => ?_
    refine Meets.bind ((waitForDevice_meets u net past hpool before fuel).weaken fun _ log h =>
      (hpast.1.quiet h).le (Nat.zero_le _)) fun serial => ?_
    refine unlessCancelled_meets Matched.looks
      (fun log h => ⟨(hpast.1.quiet h.1).le (Nat.zero_le _), Reported.failure rfl⟩) (Meets.ite ?_ ?_)
    · refine fun hne => Meets.pure fun log h => ⟨(hpast.1.quiet h.1).le (Nat.zero_le _), fun _ => ?_⟩
      have hnamed : connectedDevice serial ≠ [] := List.cons_ne_nil _ _
      exact ⟨serial, h.2.ready hne hpast.1.suffix hpast.2, suffix_joined (strip u.toUnicodeData result.stdout) hnamed⟩
    · intro _
      exact (recheckDevice_meets u net base pairingTarget hpool before (hnext _ rfl)).pre fun log h => hpast.quiet h.1
  · exact recheckDevice_meets u net base pairingTarget hpool before (hnext result (by simpa using hfailure))

end Pool

theorem mem_mergeCandidates {candidates refreshed : List Text} {c : Text}
    (h : c ∈ mergeCandidates candidates refreshed) : c ∈ candidates ∨ c ∈ refreshed := by
  induction refreshed generalizing candidates with
  | nil => exact .inl h
  | cons r refreshed ih =>
    obtain h | h := ih h
    · split_ifs at h
      · exact .inl h
      · obtain h | h := List.mem_append.mp h
        · exact .inl h
        · exact .inr (List.mem_singleton.mp h ▸ List.mem_cons_self)
    · exact .inr (List.mem_cons_of_mem _ h)

theorem subset_mergeCandidates {candidates : List Text} {c : Text} (refreshed : List Text) (h : c ∈ candidates) :
    c ∈ mergeCandidates candidates refreshed := by
  induction refreshed generalizing candidates with
  | nil => exact h
  | cons r refreshed ih =>
    refine ih ?_
    split_ifs
    · exact h
    · exact List.mem_append_left _ h

theorem connectLoop_meets (fuel : Nat) (before : List Text) {s : Attempts}
    (hlast : ∀ r ∈ s.lastResult, r.success = false) (hne : s.candidates ≠ []) :
    Meets (Going u base pairingTarget s.candidates left) (connectLoop u net fuel pairingTarget before left s)
      (Ends u net base pairingTarget) (fun _ => Within base 0) := by
  induction left generalizing s with
  | zero => exact (connectionFailed_meets u net base pairingTarget hlast).pre fun _ h => h.1
  | succ left ih =>
    have hfailed : ∀ s' : Attempts, s'.lastResult = s.lastResult → Meets (Within base (left + 1)) (connectionFailed net s')
        (Ends u net base pairingTarget) (fun _ => Within base 0) :=
      fun s' hs => connectionFailed_meets u net base pairingTarget (hs ▸ hlast)
    refine unlessLate_meets Going.looks ((hfailed s rfl).pre fun _ h => h.1) ?_
    refine unlessCancelled_meets Going.looks (fun log h => ⟨h.1.le (Nat.zero_le _), Reported.failure rfl⟩) ?_
    refine meets_of_past fun past hpast => ?_
    refine Meets.bind ((newSerial_meets u net past hne before).weaken fun _ log h =>
      (hpast.1.quiet h).le (Nat.zero_le _)) fun serial => Meets.ite ?_ ?_
    · refine fun hserial => Meets.pure fun log h => ⟨(hpast.1.quiet h.1).le (Nat.zero_le _), fun _ => ?_⟩
      exact ⟨serial, h.2.ready hserial hpast.1.suffix hpast.2, List.suffix_rfl⟩
    intro _
    refine Meets.bind ((Meets.pre (candidates_meets u net past pairingTarget) fun _ h => h.1).weaken
      fun _ log h => (hpast.1.quiet h).le (Nat.zero_le _)) fun refreshed => ?_
    have hmerged : ∀ log, (Quiet past log ∧ ∀ c ∈ refreshed, Candidate u pairingTarget log c) →
        Going u base pairingTarget (mergeCandidates s.candidates refreshed) (left + 1) log := by
      refine fun log h => ⟨hpast.1.quiet h.1, fun c hc => ?_⟩
      obtain hc | hc := mem_mergeCandidates hc
      · exact (hpast.2 c hc).mono h.1.suffix
      · exact h.2 c hc
    have hmergedne : mergeCandidates s.candidates refreshed ≠ [] := by
      obtain ⟨c, hc⟩ := List.exists_mem_of_ne_nil _ hne
      exact List.ne_nil_of_mem (subset_mergeCandidates refreshed hc)
    refine Meets.pre ?_ hmerged
    generalize mergeCandidates s.candidates refreshed = merged at hmergedne ⊢
    -- No candidate is empty, so the pool is the whole list.
    refine Meets.of_pre (fun log h => List.filter_eq_self.mpr fun c hc => decide_eq_true (h.2 c hc).1) fun hpool => ?_
    dsimp only
    rw [hpool]
    split
    case h_1 =>
      exact (hfailed { s with candidates := merged } rfl).pre fun _ h => h.1
    case h_2 target htarget =>
      refine attempt_meets u net base pairingTarget hmergedne before fuel target fun result hresult => ?_
      have hlast : ∀ r ∈ some result, r.success = false := fun r hr => Option.some.inj hr ▸ hresult
      exact @ih ⟨some result, target, _, merged⟩ hlast hmergedne

/-- What a success stands for: after a pair that succeeded, and before any cancellation, a listing has
the serial in state `device`, and the serial matches a connect service that was advertised before, on the
host of the pairing service if its target names one. -/
def Ready (u : Tables) (net : Network) (log : List Event) (serial : Text) : Prop :=
  ∃ target secret paired past, paired.success = true ∧
    ReadyAfter u net (.ran (.pair target secret) (.ok paired) :: past) target log serial

def Counted (log : List Event) : Prop := log.countP isPair ≤ 1 ∧ log.countP isConnect ≤ maxAttempts

/-- The counts of a run, and what its success stands for. -/
def Upheld (u : Tables) (net : Network) (result : CommandResult) (log : List Event) : Prop :=
  Counted log ∧
    (result.success = true → ∃ serial, Ready u net log serial ∧ connectedDevice serial <:+ result.stdout)

variable {u net base pairingTarget}

theorem Within.counted (h : Within base left log) : Counted log :=
  ⟨h.pairs, (Nat.le_add_right _ _).trans h.connects⟩

theorem counted_of_quiet (h : Quiet [] log) : Counted log := by
  obtain ⟨hpairs, hconnects⟩ := h.counts
  exact ⟨hpairs ▸ Nat.zero_le 1, hconnects ▸ Nat.zero_le _⟩

theorem Upheld.failure (h : Counted log) (hfailure : result.success = false) : Upheld u net result log := by
  refine ⟨h, fun hsuccess => ?_⟩
  rw [hfailure] at hsuccess
  cases hsuccess

theorem Upheld.status {status : Text} (h : Upheld u net result log) :
    Upheld u net { result with status := status } log := h

theorem success_of_normalizeAdbPairResult {target : Text}
    (h : (normalizeAdbPairResult u result target).success = true) : result.success = true := by
  rw [normalizeAdbPairResult] at h
  split_ifs at h with hother hmarked
  · exact h
  · exact h

variable (u net)

/-- The pair command has run once, and its answer is the latest event. -/
theorem pairWirelessTarget_meets (target password : Text) : Meets (Quiet []) (pairWirelessTarget u net target password)
    (fun result log => ∃ secret paired past, log = .ran (.pair (strip u.toUnicodeData target) secret) (.ok paired) :: past ∧
      (result.success = true → paired.success = true) ∧ Within log maxAttempts log)
    (fun _ => Counted) := by
  have hran : ∀ target secret answer log, Quiet [] log → Within (.ran (.pair target secret) answer :: log) maxAttempts
      (.ran (.pair target secret) answer :: log) := by
    intro target secret answer log h
    obtain ⟨hpairs, hconnects⟩ := h.counts
    refine ⟨List.suffix_rfl, ?_, ?_⟩
    · rw [List.countP_cons_of_pos rfl, hpairs]
      rfl
    · rw [List.countP_cons_of_neg (by exact Bool.false_ne_true), hconnects, List.countP_nil, Nat.zero_add]
  refine Meets.require_bind (fun _ => ?_) fun _ log h => counted_of_quiet h
  refine Meets.require_bind (fun _ => ?_) fun _ log h => counted_of_quiet h
  refine Meets.require_bind (fun _ => ?_) fun _ log h => counted_of_quiet h
  refine Meets.bind (Q := fun result log => ∃ secret paired past,
    log = .ran (.pair (strip u.toUnicodeData target) secret) (.ok paired) :: past ∧
      result.success = paired.success ∧ Within log maxAttempts log) ?_ fun result => ?_
  · refine Meets.bind (Q := fun result log => ∃ past,
      log = .ran (.pair (strip u.toUnicodeData target) (strip u.toUnicodeData password)) (.ok result) :: past ∧
        Within log maxAttempts log) (Meets.ask ?_ ?_) fun result => ?_
    · exact fun log answer h _ => ⟨log, rfl, hran _ _ _ _ h⟩
    · exact fun log stop h _ => (hran _ _ _ _ h).counted
    · refine Meets.pure fun log h => ?_
      obtain ⟨past, hlog, hwithin⟩ := h
      exact ⟨_, result, past, hlog, rfl, hwithin⟩
  · refine Meets.pure fun log h => ?_
    obtain ⟨secret, paired, past, hlog, hsuccess, hwithin⟩ := h
    exact ⟨secret, paired, past, hlog, fun h => hsuccess ▸ success_of_normalizeAdbPairResult h, hwithin⟩

theorem pairAndConnect_meets (fuel : Nat) (before : List Text) (password target : Text) :
    Meets (Quiet []) (pairAndConnect u net fuel before password target) (Upheld u net) (fun _ => Counted) := by
  refine Meets.bind (pairWirelessTarget_meets u net target password) fun pairResult => ?_
  refine meets_of_past fun base hbase => ?_
  obtain ⟨secret, paired, past, hlog, hpaired, hwithin⟩ := hbase
  have hcounted : ∀ log, Quiet base log → Counted log := fun log h => (hwithin.quiet h).counted
  refine unlessCancelled_meets Looks.quiet (fun log h => Upheld.failure (hcounted log h) rfl) (Meets.ite ?_ ?_)
  · refine fun hfailure => Meets.pure fun log h => Upheld.status (Upheld.failure (hcounted log h) ?_)
    simpa using hfailure
  intro hsuccess
  have hsuccess : paired.success = true := hpaired (by simpa using hsuccess)
  refine Meets.bind ((waitForCandidates_meets u net base target fuel).weaken fun _ => hcounted) fun candidates => ?_
  have hlooks : Looks fun log => Quiet base log ∧ ∀ c ∈ candidates, Candidate u target log c :=
    Looks.quiet.and fun e log h c hc => (h c hc).mono (List.suffix_cons _ _)
  refine unlessCancelled_meets hlooks (fun log h => Upheld.failure (hcounted log h.1) rfl) (Meets.ite ?_ ?_)
  · exact fun _ => Meets.pure fun log h => Upheld.failure (hcounted log h.1) rfl
  intro hne
  refine Meets.bind (Q := Upheld u net) ?_ fun result => Meets.ite (fun _ => Meets.pure fun _ h => h.status)
    fun _ => Meets.pure fun _ h => h.status
  refine (@connectLoop_meets u net base target maxAttempts fuel before _ (by simp) hne).mono
    (fun log h => ⟨hwithin.quiet h.1, h.2⟩) (fun result log h => ⟨h.1.counted, fun hok => ?_⟩) fun _ _ h => h.counted
  obtain ⟨serial, hready, hnamed⟩ := h.2 hok
  refine ⟨serial, ⟨strip u.toUnicodeData target, secret, paired, past, hsuccess, ?_⟩, hnamed⟩
  rw [← hlog]
  exact hready.strip

theorem searchPairingService_meets (fuel : Nat) (before : List Text) (serviceName password : Text) (rounds : Nat) :
    Meets (Quiet []) (searchPairingService u net fuel before serviceName password rounds) (Upheld u net)
      (fun _ => Counted) := by
  have hfailure : ∀ (result : CommandResult), result.success = false → ∀ log, Quiet [] log → Upheld u net result log :=
    fun result hresult log h => Upheld.failure (counted_of_quiet h) hresult
  induction rounds with
  | zero => exact Meets.raise fun _ h => counted_of_quiet h
  | succ rounds ih =>
    refine unlessLate_meets Looks.quiet ?_ ?_
    · exact unlessCancelled_meets Looks.quiet (hfailure _ rfl) (Meets.pure (hfailure _ rfl))
    refine unlessCancelled_meets Looks.quiet (hfailure _ rfl) ?_
    refine Meets.bind ((Meets.post (discover_meets u net []) fun _ _ h => h.1).weaken
      fun _ _ h => counted_of_quiet h) fun services => ?_
    refine unlessCancelled_meets Looks.quiet (hfailure _ rfl) ?_
    cases findMdnsService u services serviceName pairingType with
    | none => exact ih
    | some pairing => exact pairAndConnect_meets u net fuel before password pairing.target

/-- A pairing runs at most one pair and eight connects, and its success names a serial that was ready
after the pair. -/
theorem pairWirelessQr_ready (fuel : Nat) (serviceName password : Text) :
    Counted (pairWirelessQr u net fuel serviceName password []).2 ∧
      ∀ result, (pairWirelessQr u net fuel serviceName password []).1 = .ok result → result.success = true →
        ∃ serial, Ready u net (pairWirelessQr u net fuel serviceName password []).2 serial ∧
          connectedDevice serial <:+ result.stdout := by
  have hmeets : Meets (Quiet []) (pairWirelessQr u net fuel serviceName password) (Upheld u net) (fun _ => Counted) := by
    have hfailure : ∀ log, Quiet [] log → Upheld u net pairingCancelled log :=
      fun log h => Upheld.failure (counted_of_quiet h) rfl
    refine Meets.require_bind (fun _ => ?_) fun _ log h => counted_of_quiet h
    refine Meets.require_bind (fun _ => ?_) fun _ log h => counted_of_quiet h
    refine unlessCancelled_meets Looks.quiet hfailure ?_
    refine Meets.bind ((Meets.post (serials_meets u net []) fun _ _ h => h.1).weaken
      fun _ _ h => counted_of_quiet h) fun before => ?_
    refine unlessCancelled_meets Looks.quiet hfailure ?_
    refine Meets.bind (Q := fun _ => Quiet []) (Meets.ask (fun log _ h _ => h.cons rfl rfl)
      fun log _ h _ => counted_of_quiet (h.cons rfl rfl)) fun _ => ?_
    exact unlessCancelled_meets Looks.quiet hfailure (searchPairingService_meets u net fuel before _ _ fuel)
  have h := hmeets [] (Quiet.refl [])
  cases hrun : pairWirelessQr u net fuel serviceName password [] with
  | mk r log =>
    rw [hrun] at h
    cases r with
    | ok result => exact ⟨h.1, fun result' hresult => Except.ok.inj hresult ▸ h.2⟩
    | error stop => exact ⟨h, fun result hresult => by cases hresult⟩

end Connection

end OpenAdb.Wireless.QrReadiness
