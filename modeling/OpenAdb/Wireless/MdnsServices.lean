import OpenAdb.Lib.PyWords
import OpenAdb.Lib.SortedRows
import OpenAdb.Lib.TextOrder
import OpenAdb.Wireless.Endpoints

namespace OpenAdb.Wireless.MdnsServices

open OpenAdb.Lib.PyText OpenAdb.Lib.PyLines OpenAdb.Lib.PyWords
open OpenAdb.Lib.SortedRows OpenAdb.Lib.TextOrder
open OpenAdb.Wireless.Endpoints

/-- A service record, from zeroconf or from `adb mdns services`. -/
structure Service where
  name : Text
  type : Text
  target : Text
  source : Text
  deriving DecidableEq

def pairingType : Text := "_adb-tls-pairing._tcp".toList

def connectType : Text := "_adb-tls-connect._tcp".toList

/-- `text[: -len(suffix)]` of a text with this suffix. -/
def withoutSuffix (suffix text : Text) : Text := text.take (text.length - suffix.length)

variable (u : Tables)

def normalizeMdnsServiceType (serviceType : Text) : Text :=
  let text := rstripChar '.' (strip u.toUnicodeData serviceType)
  let bare := if ".local".toList.isSuffixOf text then withoutSuffix ".local".toList text else text
  rstripChar '.' bare

def nameSuffixes (normalizedType : Text) : List Text :=
  ['.' :: normalizedType ++ ".local".toList, '.' :: normalizedType,
    '.' :: pairingType ++ ".local".toList, '.' :: pairingType,
    '.' :: connectType ++ ".local".toList, '.' :: connectType]

def normalizeMdnsServiceName (name serviceType : Text) : Text :=
  let text := rstripChar '.' (strip u.toUnicodeData name)
  match (nameSuffixes (normalizeMdnsServiceType u serviceType)).find? (fun suffix => suffix.isSuffixOf text) with
  | some suffix => rstripChar '.' (withoutSuffix suffix text)
  | none => text

/-- `^(?P<name>\S+)\s+(?P<type>_adb[^\s]+)\s+(?P<target>\S+)\s*$` on a line that is not a heading. -/
def mdnsRow (line : Text) : Option Service :=
  let line := strip u.toUnicodeData line
  if line = [] ∨ "list of discovered".toList.isPrefixOf (u.lower line) = true then none
  else match words u.toUnicodeData line with
    | [name, type, target] =>
      if "_adb".toList.isPrefixOf type = true ∧ 4 < type.length then
        some ⟨normalizeMdnsServiceName u name type, normalizeMdnsServiceType u type, target, "adb mdns".toList⟩
      else none
    | _ => none

def parseMdnsServices (text : Text) : List Service := (splitlines text).filterMap (mdnsRow u)

def serviceKey (service : Service) : Text × Text × Text :=
  (normalizeMdnsServiceName u service.name service.type, normalizeMdnsServiceType u service.type, service.target)

/-- The first record of each key stays. -/
def dedupeMdnsServices (seen : List (Text × Text × Text)) : List Service → List Service
  | [] => []
  | service :: services =>
    if serviceKey u service ∈ seen then dedupeMdnsServices seen services
    else service :: dedupeMdnsServices (serviceKey u service :: seen) services

def servicesOfType (type : Text) (services : List Service) : List Service :=
  services.filter fun service => normalizeMdnsServiceType u service.type = type && service.target ≠ []

/-- The service of the QR code, or one of Android Studio's that holds its name. -/
def findMdnsService (services : List Service) (name serviceType : Text) : Option Service :=
  let serviceType := normalizeMdnsServiceType u serviceType
  let name := normalizeMdnsServiceName u name serviceType
  let candidates := servicesOfType u serviceType services
  let serviceName := fun service : Service => normalizeMdnsServiceName u service.name serviceType
  (candidates.find? fun service => serviceName service = name).or
    (candidates.find? fun service => serviceType = pairingType && "studio-".toList.isPrefixOf (serviceName service) &&
      decide (name <:+: serviceName service))

def sameWirelessEndpoint (left right : Text) : Bool :=
  let l := wirelessEndpointParts u left
  let r := wirelessEndpointParts u right
  if l.1 ≠ [] ∧ r.1 ≠ [] ∧ l.2.getD 0 ≠ 0 ∧ r.2.getD 0 ≠ 0 then u.lower l.1 = u.lower r.1 && l.2 = r.2
  else
    let leftText := u.lower (strip u.toUnicodeData left)
    leftText ≠ [] && leftText = u.lower (strip u.toUnicodeData right)

def wirelessSerialMatchesExpected (serial expected : Text) : Bool :=
  let serialName := casefold u.toUnicodeData (normalizeMdnsServiceName u serial connectType)
  sameWirelessEndpoint u serial expected ||
    serialName ≠ [] && serialName = casefold u.toUnicodeData (normalizeMdnsServiceName u expected connectType)

def appendUnique (items : List Text) (value : Text) : List Text :=
  let value := strip u.toUnicodeData value
  if value ≠ [] ∧ value ∉ items then items ++ [value] else items

def hostOf (service : Service) : Text := mdnsTargetHost u service.target

/-- The order of the candidates: zeroconf first, then the exact host, then name and target. -/
def candidateKey (pairingHost : Text) (service : Service) : Nat × Nat × Text × Text :=
  (if service.source = "zeroconf".toList then 0 else 1,
    if pairingHost ≠ [] ∧ hostOf u service = pairingHost then 0 else 1, service.name, service.target)

def keyLess (a b : Nat × Nat × Text × Text) : Bool :=
  if a.1 ≠ b.1 then a.1 < b.1
  else if a.2.1 ≠ b.2.1 then a.2.1 < b.2.1
  else if a.2.2.1 ≠ b.2.2.1 then textLess a.2.2.1 b.2.2.1
  else textLess a.2.2.2 b.2.2.2

/-- The connect services on the host, or all of them when the pairing target names no host. -/
def eligibleServices (pairingHost : Text) (services : List Service) : List Service :=
  let connectServices := servicesOfType u connectType services
  if pairingHost ≠ [] then connectServices.filter fun service =>
    casefold u.toUnicodeData (hostOf u service) = casefold u.toUnicodeData pairingHost
  else connectServices

def addCandidates (pairingTarget : Text) (candidates : List Text) (service : Service) : List Text :=
  let target := strip u.toUnicodeData service.target
  if sameWirelessEndpoint u target pairingTarget then candidates
  else
    let serviceName := normalizeMdnsServiceName u service.name service.type
    let named := if "adb-".toList.isPrefixOf serviceName then appendUnique u candidates serviceName else candidates
    if target ≠ [] then appendUnique u named target else named

def wirelessConnectCandidatesFromServices (services : List Service) (pairingTarget : Text) : List Text :=
  let pairingTarget := strip u.toUnicodeData pairingTarget
  let pairingHost := mdnsTargetHost u pairingTarget
  (stableSort keyLess (candidateKey u pairingHost) (eligibleServices u pairingHost services)).foldl
    (addCandidates u pairingTarget) []

variable {u : Tables} {services : List Service} {service : Service} {pairingTarget value : Text} {items : List Text}

theorem mem_dedupe {seen : List (Text × Text × Text)} (h : service ∈ dedupeMdnsServices u seen services) :
    service ∈ services := by
  induction services generalizing seen with
  | nil => cases h
  | cons s services ih =>
    rw [dedupeMdnsServices] at h
    by_cases hseen : serviceKey u s ∈ seen
    · rw [if_pos hseen] at h
      exact List.mem_cons_of_mem _ (ih h)
    · rw [if_neg hseen, List.mem_cons] at h
      obtain rfl | h := h
      · exact List.mem_cons_self
      · exact List.mem_cons_of_mem _ (ih h)

theorem mem_appendUnique {x : Text} (h : x ∈ appendUnique u items value) :
    x ∈ items ∨ x = strip u.toUnicodeData value ∧ x ≠ [] := by
  rw [appendUnique] at h
  split_ifs at h with hnew
  · obtain h | h := List.mem_append.mp h
    · exact .inl h
    · have hx := List.mem_singleton.mp h
      exact .inr ⟨hx, hx ▸ hnew.1⟩
  · exact .inl h

/-- A name or a target under which the service can be connected. -/
def Leads (u : Tables) (service : Service) (candidate : Text) : Prop :=
  candidate = strip u.toUnicodeData (normalizeMdnsServiceName u service.name service.type) ∨
    candidate = strip u.toUnicodeData service.target

theorem mem_addCandidates {candidate : Text} (h : candidate ∈ addCandidates u pairingTarget items service) :
    candidate ∈ items ∨ candidate ≠ [] ∧ Leads u service candidate := by
  rw [addCandidates] at h
  dsimp only at h
  have hnamed : ∀ x ∈ (if "adb-".toList.isPrefixOf (normalizeMdnsServiceName u service.name service.type) then
      appendUnique u items (normalizeMdnsServiceName u service.name service.type) else items),
      x ∈ items ∨ x ≠ [] ∧ Leads u service x := by
    intro x hx
    split_ifs at hx
    · obtain hx | ⟨hx, hne⟩ := mem_appendUnique hx
      · exact .inl hx
      · exact .inr ⟨hne, .inl hx⟩
    · exact .inl hx
  by_cases hsame : sameWirelessEndpoint u (strip u.toUnicodeData service.target) pairingTarget = true
  · rw [if_pos hsame] at h
    exact .inl h
  rw [if_neg hsame] at h
  by_cases htarget : strip u.toUnicodeData service.target ≠ []
  · rw [if_pos htarget] at h
    obtain h | ⟨h, hne⟩ := mem_appendUnique h
    · exact hnamed candidate h
    · rw [strip_strip] at h
      exact .inr ⟨hne, .inr h⟩
  · rw [if_neg htarget] at h
    exact hnamed candidate h

/-- A connect service on the host of the pairing target, if the target names one. -/
structure Eligible (u : Tables) (pairingTarget : Text) (service : Service) : Prop where
  type : normalizeMdnsServiceType u service.type = connectType
  target : service.target ≠ []
  host : mdnsTargetHost u pairingTarget ≠ [] →
    casefold u.toUnicodeData (hostOf u service) = casefold u.toUnicodeData (mdnsTargetHost u pairingTarget)

theorem mem_eligibleServices (h : service ∈ eligibleServices u (mdnsTargetHost u pairingTarget) services) :
    service ∈ services ∧ Eligible u pairingTarget service := by
  have hconnect : ∀ s ∈ servicesOfType u connectType services,
      s ∈ services ∧ normalizeMdnsServiceType u s.type = connectType ∧ s.target ≠ [] := by
    intro s hs
    obtain ⟨hmem, hs⟩ := List.mem_filter.mp hs
    rw [Bool.and_eq_true, decide_eq_true_eq, decide_eq_true_eq] at hs
    exact ⟨hmem, hs⟩
  rw [eligibleServices] at h
  split_ifs at h with hhost
  · obtain ⟨hmem, hsame⟩ := List.mem_filter.mp h
    obtain ⟨hmem, htype, htarget⟩ := hconnect service hmem
    exact ⟨hmem, htype, htarget, fun _ => of_decide_eq_true hsame⟩
  · obtain ⟨hmem, htype, htarget⟩ := hconnect service h
    exact ⟨hmem, htype, htarget, fun hne => absurd hne hhost⟩

theorem mdnsTargetHost_strip (target : Text) :
    mdnsTargetHost u (strip u.toUnicodeData target) = mdnsTargetHost u target := by
  rw [mdnsTargetHost, mdnsTargetHost, strip_strip]

theorem mem_candidates {candidate : Text} (h : candidate ∈ wirelessConnectCandidatesFromServices u services pairingTarget) :
    candidate ≠ [] ∧ ∃ service ∈ services, Eligible u pairingTarget service ∧ Leads u service candidate := by
  have hfold : ∀ (rows : List Service) (items : List Text),
      candidate ∈ rows.foldl (addCandidates u (strip u.toUnicodeData pairingTarget)) items →
      candidate ∈ items ∨ candidate ≠ [] ∧ ∃ service ∈ rows, Leads u service candidate := by
    intro rows
    induction rows with
    | nil => exact fun items h => .inl h
    | cons row rows ih =>
      intro items h
      obtain h | ⟨hne, service, hmem, hleads⟩ := ih _ h
      · obtain h | ⟨hne, hleads⟩ := mem_addCandidates h
        · exact .inl h
        · exact .inr ⟨hne, row, List.mem_cons_self, hleads⟩
      · exact .inr ⟨hne, service, List.mem_cons_of_mem _ hmem, hleads⟩
  rw [wirelessConnectCandidatesFromServices] at h
  obtain h | ⟨hne, service, hmem, hleads⟩ := hfold _ _ h
  · cases h
  · have hmem := (stableSort_perm _ _ _).mem_iff.mp hmem
    rw [mdnsTargetHost_strip] at hmem
    obtain ⟨hmem, heligible⟩ := mem_eligibleServices hmem
    exact ⟨hne, service, hmem, heligible, hleads⟩

end OpenAdb.Wireless.MdnsServices
