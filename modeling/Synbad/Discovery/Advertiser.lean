import Synbad.Lib.Pending
import Synbad.Config.CoreInputs
import Synbad.Ipc.LogParse
import Synbad.Discovery.Browser
import Mathlib.Data.Finset.Sort
import Mathlib.Data.List.DropRight

/-! # The service advertiser

`advertiser.rs` and `interfaces.rs`: our own record is registered with the mDNS daemon and registered
again whenever the ports, the config head or the addresses of the LAN interfaces have changed. Any of
the steps may fail. What is still to be announced is remembered in three places: the fields are taken
over only once they are registered, the addresses as soon as they are seen, and `reannounce` stays up
in between.

The mDNS library is a parameter with its answers: whether it makes a record, and whether it registers
it; a record it makes is the one that was asked for. `Looks` and `Calls` say what a look at the
interfaces and a call come to, each with a case for every way it may end, and everything after them
goes by those cases. `Announced` is the invariant, and `advertisement_converges` what follows for any
calls after a start: a call that succeeds has announced what it was asked for, and a change of
addresses that a failed call has seen is announced by the next one that succeeds. -/

namespace Synbad

namespace IpAddr

/-- The key of the derived order: the IPv4 addresses come first, each family by number. -/
def orderKey (ip : IpAddr) : Bool ×ₗ ℕ := toLex (ip.isIpv6, ip.toNat)

/-- Different addresses have different keys, so the order has no ties. -/
theorem orderKey_injective : Function.Injective orderKey := by
  intro x y h
  have hkey : (x.isIpv6, x.toNat) = (y.isIpv6, y.toNat) := toLex_inj.mp h
  cases x <;> cases y <;> simp [isIpv6, toNat] at hkey
  · rw [BitVec.eq_of_toNat_eq hkey]
  · rw [BitVec.eq_of_toNat_eq hkey]

/-- The derived order of the addresses. -/
instance : LinearOrder IpAddr := LinearOrder.lift' orderKey orderKey_injective

end IpAddr

/-! ## The interfaces -/

/-- `if_addrs::Interface`: a network interface of the machine with one of its addresses. -/
structure Interface where
  name : String
  ip : IpAddr
  isLoopback : Bool

/-- What `mdns_sd::ServiceInfo::new` is given: a type, names, addresses, a port and TXT properties. -/
structure ServiceRequest where
  tyDomain : String
  myName : String
  hostName : String
  ip : List IpAddr
  port : UInt16
  properties : List (String × String)

/-- The record of a service, as it was asked for: the full name is the name of the instance in front of
the type of the service, and every other part is what was given. -/
def ServiceRequest.record (r : ServiceRequest) : ServiceInfo where
  fullname := r.myName ++ "." ++ r.tyDomain
  hostname := r.hostName
  port := r.port.toNat
  addresses := r.ip
  property key := r.properties.lookup key

/-- What the machine and the mDNS daemon answer during one call: the error of each operation that
fails, the interfaces unless they cannot be listed, the two places a host name may come from, and what
the library makes of a record it is asked for. Of the library nothing is known but what it documents: a
record that it makes is the one it was asked for. -/
structure MdnsAnswers where
  newDaemon : Option String
  disableAll : Option String
  getIfAddrs : Option (List Interface)
  enableInterface : String → Option String
  procHostname : Option String
  envHostname : Option String
  newService : ServiceRequest → Except String ServiceInfo
  newService_ok : ∀ request info, newService request = .ok info → info = request.record
  register : Option String

/-- Nothing fails, but there is no interface and no host name to be had. -/
def MdnsAnswers.calm : MdnsAnswers where
  newDaemon := none
  disableAll := none
  getIfAddrs := none
  enableInterface _ := none
  procHostname := none
  envHostname := none
  newService request := .ok request.record
  newService_ok _ _ h := (Except.ok.inj h).symm
  register := none

/-- `InterfacePolicy`: which interfaces are enabled for mDNS, and the addresses that are announced. -/
structure InterfacePolicy where
  initialized : Bool
  enabled : Finset String
  addresses : Finset (String × IpAddr)

/-- `excluded`: loopback, and on macOS the tunnels and two wireless links of the system itself. -/
def excluded (name : String) (macos : Bool) : Bool :=
  name == "lo" || name == "lo0" ||
    (macos && ("utun".toList.isPrefixOf name.toList || name == "awdl0" || name == "llw0"))

namespace InterfacePolicy

/-- `InterfacePolicy::default`: nothing has been disabled, enabled or seen yet. -/
def default : InterfacePolicy := { initialized := false, enabled := ∅, addresses := ∅ }

/-- `advertised_addresses`: the addresses without their interfaces, in order and each once. -/
def advertisedAddresses (p : InterfacePolicy) : List IpAddr := (p.addresses.image Prod.snd).sort

/-- The loop of `refresh`, over the interfaces that are left: it stops at the first that cannot be
enabled, and those it has enabled stay so. -/
def scan (macos : Bool) (answers : MdnsAnswers) :
    List Interface → Finset String → Finset (String × IpAddr) →
      Finset String × Except String (Finset (String × IpAddr))
  | [], enabled, addresses => (enabled, .ok addresses)
  | interface :: rest, enabled, addresses =>
      if excluded interface.name macos || interface.isLoopback then
        scan macos answers rest enabled addresses
      else if interface.name ∈ enabled then
        scan macos answers rest enabled (insert (interface.name, interface.ip) addresses)
      else
        match answers.enableInterface interface.name with
        | some e => (enabled, .error e)
        | none =>
            scan macos answers rest (insert interface.name enabled)
              (insert (interface.name, interface.ip) addresses)

/-- `InterfacePolicy::refresh`, and whether the addresses have changed since the last one that went
through. -/
def refresh (macos : Bool) (answers : MdnsAnswers) (p : InterfacePolicy) :
    InterfacePolicy × Except String Bool :=
  match if p.initialized then none else answers.disableAll with
  | some e => (p, .error e)
  | none =>
      let p := { p with initialized := true }
      match answers.getIfAddrs with
      | none => (p, .ok false)
      | some interfaces =>
          match scan macos answers interfaces p.enabled ∅ with
          | (enabled, .error e) => ({ p with enabled := enabled }, .error e)
          | (enabled, .ok addresses) =>
              ({ p with enabled := enabled, addresses := addresses },
                .ok (decide (p.addresses ≠ addresses)))

end InterfacePolicy

/-! ## The record -/

/-- `AdvertisedFields`: what the record is made of, but for the addresses. -/
structure AdvertisedFields where
  machineId : String
  fingerprint : String
  displayName : String
  hostName : String
  servicePort : UInt16
  syncPort : UInt16
  corePort : UInt16
  audioPort : UInt16
  configHead : String
  deriving DecidableEq

/-- `AdvertiseError`: the library fails, or the name cannot be that of an instance. -/
inductive AdvertiseError where
  | mdns (e : String)
  | badName (name : String)

/-- The text of an `AdvertiseError`, as it is logged. -/
def AdvertiseError.message (unicode : UnicodeTables) : AdvertiseError → String
  | .mdns e => "mdns: " ++ e
  | .badName name => "invalid display name: " ++ debugStr unicode name

/-- What `mdns_sd::ServiceDaemon` was given to announce, the latest first. -/
abbrev ServiceDaemon := List ServiceInfo

/-- The record that is announced under a name: the last that was registered. -/
def ServiceDaemon.record (daemon : ServiceDaemon) (fullName : String) : Option ServiceInfo :=
  daemon.find? fun info => info.fullname = fullName

/-- `Advertiser`: what is registered, what it was made of, and whether it is to be registered
again. -/
structure Advertiser where
  daemon : ServiceDaemon
  fullName : String
  fields : AdvertisedFields
  interfaces : InterfacePolicy
  reannounce : Bool

namespace Advertiser

/-- `SERVICE_TYPE`, under which all machines announce themselves. -/
def serviceType : String := "_synbad._tcp.local."

/-- `PROTOCOL_VERSION`, which every record has under `v`. -/
def protocolVersion : ℕ := 1

/-- `hostname`: of the file in `/proc`, else of the environment, else none. -/
def hostname (answers : MdnsAnswers) : String :=
  match answers.procHostname, answers.envHostname with
  | some s, _ =>
      String.ofList ((LogParse.trimStart s.toList).rdropWhile LogParse.isWhitespace)
  | none, some s => s
  | none, none => ""

/-- `sanitize`: what is no letter, digit or hyphen becomes a hyphen. -/
def sanitize (s : List Char) : List Char := s.map fun c => if c.isAlphanum || c == '-' then c else '-'

/-- `ensure_local_dot`: the host name as mDNS wants it, with `.local.` at its end. -/
def ensureLocalDot (host : String) : String :=
  let h := host.toList.rdropWhile (· == '.')
  if ".local".toList.isSuffixOf h then String.ofList h ++ "."
  else String.ofList (sanitize h) ++ ".local."

/-- The TXT keys of `build_service_info`: a port of nought and an empty head are left out. -/
def properties (f : AdvertisedFields) (host : String) : List (String × String) :=
  [("v", toString protocolVersion), ("id", f.machineId), ("fp", f.fingerprint),
    ("core_port", toString f.corePort.toNat), ("sync_port", toString f.syncPort.toNat)] ++
  (if f.audioPort = 0 then [] else [("audio_port", toString f.audioPort.toNat)]) ++
  (if f.configHead = "" then [] else [("cfg", f.configHead)]) ++
  [("host", host)]

/-- What `build_service_info` asks for, with these addresses. -/
def serviceRequest (f : AdvertisedFields) (addresses : List IpAddr) (host : String) :
    ServiceRequest where
  tyDomain := serviceType
  myName := f.displayName
  hostName := f.hostName
  ip := addresses
  port := f.servicePort
  properties := properties f host

/-- The record that `build_service_info` asks for, which is made if the library does not refuse. -/
def serviceInfo (f : AdvertisedFields) (addresses : List IpAddr) (host : String) : ServiceInfo :=
  (serviceRequest f addresses host).record

/-- `build_service_info`, which fails only as the library does. -/
def buildServiceInfo (answers : MdnsAnswers) (f : AdvertisedFields) (addresses : List IpAddr) :
    Except AdvertiseError ServiceInfo :=
  (answers.newService (serviceRequest f addresses (hostname answers))).mapError .mdns

/-- `Advertiser::start`: the interfaces are looked at and the record is registered, or there is no
advertiser. -/
def start (macos : Bool) (answers : MdnsAnswers) (machineId fingerprint displayName : String)
    (servicePort syncPort corePort audioPort : UInt16) (configHead : String) :
    Except AdvertiseError Advertiser :=
  if displayName.toList = [] ∨ '.' ∈ displayName.toList then .error (.badName displayName)
  else
    match answers.newDaemon with
    | some e => .error (.mdns e)
    | none =>
        match InterfacePolicy.default.refresh macos answers with
        | (_, .error e) => .error (.mdns e)
        | (interfaces, .ok _) =>
            let hostName :=
              if hostname answers = "" then
                String.ofList (sanitize displayName.toList) ++ ".local."
              else ensureLocalDot (hostname answers)
            let fields : AdvertisedFields := {
              machineId := machineId
              fingerprint := fingerprint
              displayName := displayName
              hostName := hostName
              servicePort := servicePort
              syncPort := syncPort
              corePort := corePort
              audioPort := audioPort
              configHead := configHead }
            match buildServiceInfo answers fields interfaces.advertisedAddresses with
            | .error e => .error e
            | .ok service =>
                match answers.register with
                | some e => .error (.mdns e)
                | none => .ok {
                    daemon := [service]
                    fullName := service.fullname
                    fields := fields
                    interfaces := interfaces
                    reannounce := false }

/-- `Advertiser::refresh`: the record is registered again if a field or an address has changed, or one
was to be announced already. -/
def refresh (macos : Bool) (answers : MdnsAnswers) (a : Advertiser)
    (servicePort syncPort corePort audioPort : UInt16) (configHead : String) :
    Advertiser × Except AdvertiseError Unit :=
  let fields := { a.fields with
    servicePort := servicePort
    syncPort := syncPort
    corePort := corePort
    audioPort := audioPort
    configHead := configHead }
  match a.interfaces.refresh macos answers with
  | (interfaces, .error e) => ({ a with interfaces := interfaces }, .error (.mdns e))
  | (interfaces, .ok changed) =>
      let a := { a with interfaces := interfaces, reannounce := a.reannounce || changed }
      if fields = a.fields ∧ a.reannounce = false then (a, .ok ())
      else
        match buildServiceInfo answers fields a.interfaces.advertisedAddresses with
        | .error e => (a, .error e)
        | .ok service =>
            match answers.register with
            | some e => (a, .error (.mdns e))
            | none =>
                -- the fields are taken over only now, so that a failed call is made up for later
                ({ a with
                  daemon := service :: a.daemon
                  fields := fields
                  reannounce := false }, .ok ())

/-- `Advertiser::set_audio_port`: a refresh in which everything else is as it was. -/
def setAudioPort (macos : Bool) (answers : MdnsAnswers) (a : Advertiser) (audioPort : UInt16) :
    Advertiser × Except AdvertiseError Unit :=
  a.refresh macos answers a.fields.servicePort a.fields.syncPort a.fields.corePort audioPort
    a.fields.configHead

end Advertiser

/-! ## What a record says -/

/-- A number that fits is read back from its digits. -/
theorem parseUnsigned_toString {width n : ℕ} (h : n < 2 ^ width) :
    parseUnsigned width (toString n) = some n := by
  have hchars : (toString n).toList = Nat.toDigits 10 n := by
    rw [Nat.toString_eq_repr, Nat.toList_repr]
  have hplus : '+' ∉ (toString n).toList := not_mem_toString (by decide) n
  have hnonempty : (Nat.toDigits 10 n).isEmpty = false := by
    rw [List.isEmpty_eq_false_iff]
    exact Nat.toDigits_ne_nil
  have hall : (Nat.toDigits 10 n).all Char.isDigit = true := by
    rw [List.all_eq_true]
    exact fun c hc => Nat.isDigit_of_mem_toDigits (by decide) (by decide) hc
  have hvalue := Nat.ofDigitChars_ten_toDigits (n := n)
  rw [Nat.ofDigitChars_eq_foldl] at hvalue
  unfold parseUnsigned
  split
  · next rest heq =>
    rw [heq] at hplus
    exact absurd List.mem_cons_self hplus
  · rw [hchars]
    simp only [hnonempty, hall, hvalue, Bool.not_true, Bool.or_false, Bool.false_eq_true, if_false,
      if_pos h]

namespace Advertiser

/-- A port as peers read it: the number it was written from. -/
theorem port_text (p : UInt16) :
    (parseUnsigned 16 (toString p.toNat)).getD 0 = p.toNat := by
  rw [parseUnsigned_toString p.toNat_lt, Option.getD_some]

/-- The name of the instance is read back from the full name, as it has no dot. -/
theorem takeWhile_displayName {name : String} (h : '.' ∉ name.toList) (rest : String) :
    String.ofList ((name ++ "." ++ rest).toList.takeWhile (· ≠ '.')) = name := by
  have hall : ∀ c ∈ name.toList, decide (c ≠ '.') = true := by
    intro c hc
    rw [decide_eq_true_eq]
    rintro rfl
    exact h hc
  have hdot : ("." ++ rest).toList.takeWhile (· ≠ '.') = [] := by
    rw [String.toList_append]
    rfl
  rw [String.append_assoc, String.toList_append, List.takeWhile_append_of_pos hall, hdot,
    List.append_nil, String.ofList_toList]

variable (f : AdvertisedFields) (addresses : List IpAddr) (host : String)

/-- No audio port in the record reads as the port zero. -/
theorem audioPort_serviceInfo :
    (((serviceInfo f addresses host).property "audio_port").bind (parseUnsigned 16)).getD 0 =
      f.audioPort.toNat := by
  by_cases haudio : f.audioPort = 0
  · by_cases hhead : f.configHead = "" <;>
      simp [serviceInfo, serviceRequest, ServiceRequest.record, properties, List.lookup_cons, haudio, hhead]
  · have hproperty : (serviceInfo f addresses host).property "audio_port" =
        some (toString f.audioPort.toNat) := by
      simp [serviceInfo, serviceRequest, ServiceRequest.record, properties, List.lookup_cons, haudio]
    rw [hproperty, Option.bind_some, port_text]

/-- No config head in the record reads as the empty one. -/
theorem configHead_serviceInfo :
    ((serviceInfo f addresses host).property "cfg").getD "" = f.configHead := by
  by_cases haudio : f.audioPort = 0 <;> by_cases hhead : f.configHead = "" <;>
    simp [serviceInfo, serviceRequest, ServiceRequest.record, properties, List.lookup_cons, haudio, hhead]

variable {f}

/-- **What peers read from the record is what went into it.** -/
theorem peerFrom_serviceInfo (h : '.' ∉ f.displayName.toList) :
    peerFrom (serviceInfo f addresses host) = some {
      machineId := f.machineId
      displayName := f.displayName
      host := (candidateAddresses addresses).head?.getD f.hostName
      addresses := candidateAddresses addresses
      servicePort := f.servicePort.toNat
      corePort := f.corePort.toNat
      syncPort := f.syncPort.toNat
      audioPort := f.audioPort.toNat
      fingerprint := f.fingerprint
      protocolVersion := protocolVersion
      configHead := f.configHead } := by
  have hid : (serviceInfo f addresses host).property "id" = some f.machineId := rfl
  have hfp : (serviceInfo f addresses host).property "fp" = some f.fingerprint := rfl
  have hcore : (serviceInfo f addresses host).property "core_port" =
      some (toString f.corePort.toNat) := rfl
  have hsync : (serviceInfo f addresses host).property "sync_port" =
      some (toString f.syncPort.toNat) := rfl
  have hversion : (((serviceInfo f addresses host).property "v").bind (parseUnsigned 32)).getD 0 =
      protocolVersion := by
    show ((some (toString protocolVersion)).bind (parseUnsigned 32)).getD 0 = _
    rw [Option.bind_some, parseUnsigned_toString (by decide), Option.getD_some]
  have hname : String.ofList ((serviceInfo f addresses host).fullname.toList.takeWhile (· ≠ '.')) =
      f.displayName := takeWhile_displayName h serviceType
  simp only [peerFrom, hid, hfp, hcore, hsync, hversion, port_text, audioPort_serviceInfo,
    configHead_serviceInfo, hname, Option.bind_eq_bind, Option.bind_some, Option.pure_def]
  rfl

/-- The fields a record was made of, as its readers get them. -/
def fieldsOf (info : ServiceInfo) : Option AdvertisedFields :=
  (peerFrom info).map fun peer => {
    machineId := peer.machineId
    fingerprint := peer.fingerprint
    displayName := peer.displayName
    hostName := info.hostname
    servicePort := .ofNat peer.servicePort
    syncPort := .ofNat peer.syncPort
    corePort := .ofNat peer.corePort
    audioPort := .ofNat peer.audioPort
    configHead := peer.configHead }

/-- The fields are read back from the record that was made of them. -/
theorem fieldsOf_serviceInfo (h : '.' ∉ f.displayName.toList) :
    fieldsOf (serviceInfo f addresses host) = some f := by
  rw [fieldsOf, peerFrom_serviceInfo addresses host h, Option.map_some]
  simp only [UInt16.ofNat_toNat]
  rfl

end Advertiser

/-! ## What a look at the interfaces reports -/

namespace InterfacePolicy

variable {macos : Bool} {answers : MdnsAnswers} {p p' : InterfacePolicy} {ip : IpAddr}

/-- An address is announced exactly if some interface has it. -/
theorem mem_advertisedAddresses :
    ip ∈ p.advertisedAddresses ↔ ∃ name, (name, ip) ∈ p.addresses := by
  simp [advertisedAddresses]

/-- **What a look does**, and what it returns: there are four ways it may end. -/
inductive Looks (macos : Bool) (answers : MdnsAnswers) (p : InterfacePolicy) :
    InterfacePolicy × Except String Bool → Prop
  /-- The first look cannot disable what there is, and nothing has changed. -/
  | denied (e : String) (first : p.initialized = false) (failed : answers.disableAll = some e) :
      Looks macos answers p (p, .error e)
  /-- The interfaces cannot be listed, and the addresses are taken to be as they were. -/
  | unlisted (failed : answers.getIfAddrs = none) :
      Looks macos answers p ({ p with initialized := true }, .ok false)
  /-- An interface cannot be enabled: those before it are, and the addresses are as they were. -/
  | stuck (interfaces : List Interface) (enabled : Finset String) (e : String)
      (listed : answers.getIfAddrs = some interfaces)
      (scanned : scan macos answers interfaces p.enabled ∅ = (enabled, .error e)) :
      Looks macos answers p
        ({ p with initialized := true, enabled := enabled }, .error e)
  /-- The addresses are taken over, and it is told whether they are new. -/
  | seen (interfaces : List Interface) (enabled : Finset String)
      (addresses : Finset (String × IpAddr)) (listed : answers.getIfAddrs = some interfaces)
      (scanned : scan macos answers interfaces p.enabled ∅ = (enabled, .ok addresses)) :
      Looks macos answers p
        ({ initialized := true, enabled := enabled, addresses := addresses },
          .ok (decide (p.addresses ≠ addresses)))

/-- Every look ends in one of the four ways. -/
theorem refresh_looks (macos : Bool) (answers : MdnsAnswers) (p : InterfacePolicy) :
    Looks macos answers p (p.refresh macos answers) := by
  unfold refresh
  split
  · next e he =>
    cases hinit : p.initialized with
    | true => simp [hinit] at he
    | false =>
        rw [hinit, if_neg Bool.false_ne_true] at he
        exact .denied e hinit he
  · split
    · next hlist => exact .unlisted hlist
    · next interfaces hlist =>
      dsimp only
      split
      · next enabled e hscan => exact .stuck interfaces enabled e hlist hscan
      · next enabled addresses hscan => exact .seen interfaces enabled addresses hlist hscan

/-- A look that fails leaves the addresses as they were. -/
theorem refresh_error {e : String} (look : p.refresh macos answers = (p', .error e)) :
    p'.addresses = p.addresses := by
  have hlook := refresh_looks macos answers p
  rw [look] at hlook
  cases hlook <;> rfl

/-- **A look reports every change**: what it returns is whether the addresses are others than
before. -/
theorem refresh_ok {changed : Bool} (look : p.refresh macos answers = (p', .ok changed)) :
    changed = false ↔ p'.addresses = p.addresses := by
  have hlook := refresh_looks macos answers p
  rw [look] at hlook
  cases hlook with
  | unlisted => simp
  | seen interfaces enabled addresses =>
      rw [decide_eq_false_iff_not, not_not, eq_comm]

/-- Only interfaces that are not excluded are enabled, and only their addresses are kept. -/
structure LanOnly (macos : Bool) (enabled : Finset String) (addresses : Finset (String × IpAddr)) :
    Prop where
  allowed : ∀ name ∈ enabled, excluded name macos = false
  listed : ∀ a ∈ addresses, a.1 ∈ enabled

/-- The loop keeps to the LAN. The addresses of the last look are kept if it fails. -/
theorem scan_lanOnly {interfaces : List Interface} {enabled enabled' : Finset String}
    {addresses : Finset (String × IpAddr)} {r : Except String (Finset (String × IpAddr))}
    (h : LanOnly macos enabled addresses)
    (hscan : scan macos answers interfaces enabled addresses = (enabled', r)) :
    enabled ⊆ enabled' ∧ (∀ name ∈ enabled', excluded name macos = false) ∧
      ∀ addresses', r = .ok addresses' → LanOnly macos enabled' addresses' := by
  -- induction on the interfaces, with what has been enabled and kept so far
  induction interfaces generalizing enabled addresses with
  | nil =>
      obtain ⟨rfl, rfl⟩ := Prod.mk.inj hscan
      refine ⟨subset_rfl, h.allowed, ?_⟩
      rintro _ ⟨⟩
      exact h
  | cons interface rest ih =>
      unfold scan at hscan
      split at hscan
      · exact ih h hscan
      next hlan =>
      have hname : excluded interface.name macos = false := by
        cases hx : excluded interface.name macos <;> simp_all
      split at hscan
      · -- enabled before: only its address is new
        next henabled =>
        refine ih ⟨h.allowed, ?_⟩ hscan
        intro a ha
        rcases Finset.mem_insert.mp ha with rfl | ha
        · exact henabled
        · exact h.listed a ha
      · split at hscan
        -- it cannot be enabled, and no address is reported
        · obtain ⟨rfl, rfl⟩ := Prod.mk.inj hscan
          exact ⟨subset_rfl, h.allowed, by rintro _ ⟨⟩⟩
        · have hnext : LanOnly macos (insert interface.name enabled)
              (insert (interface.name, interface.ip) addresses) := by
            constructor
            · intro name hmem
              rcases Finset.mem_insert.mp hmem with rfl | hmem
              · exact hname
              · exact h.allowed name hmem
            · intro a ha
              rcases Finset.mem_insert.mp ha with rfl | ha
              · exact Finset.mem_insert_self _ _
              · exact Finset.mem_insert_of_mem (h.listed a ha)
          obtain ⟨hsub, hrest⟩ := ih hnext hscan
          exact ⟨(Finset.subset_insert _ _).trans hsub, hrest⟩

/-- What a look keeps from before or takes over is of the LAN, however it ends. -/
theorem Looks.lanOnly {r : Except String Bool} (look : Looks macos answers p (p', r))
    (h : LanOnly macos p.enabled p.addresses) : LanOnly macos p'.enabled p'.addresses := by
  have hempty : LanOnly macos p.enabled ∅ := ⟨h.allowed, by simp⟩
  cases look with
  | denied => exact h
  | unlisted => exact h
  | stuck interfaces enabled e listed scanned =>
      obtain ⟨hsub, hallowed, -⟩ := scan_lanOnly hempty scanned
      exact ⟨hallowed, fun a ha => hsub (h.listed a ha)⟩
  | seen interfaces enabled addresses listed scanned =>
      obtain ⟨-, -, hok⟩ := scan_lanOnly hempty scanned
      exact hok addresses rfl

end InterfacePolicy

namespace Advertiser

/-! ## One call -/

/-- A call of one of the two methods, with what it is given. -/
inductive Request where
  | refresh (servicePort syncPort corePort audioPort : UInt16) (configHead : String)
  | setAudioPort (audioPort : UInt16)

/-- One call, and what it returns, as the machine and the daemon answer. -/
def call (macos : Bool) (answers : MdnsAnswers) (a : Advertiser) :
    Request → Advertiser × Except AdvertiseError Unit
  | .refresh servicePort syncPort corePort audioPort configHead =>
      a.refresh macos answers servicePort syncPort corePort audioPort configHead
  | .setAudioPort audioPort => a.setAudioPort macos answers audioPort

/-- The fields a call asks for: it leaves the identity alone, and the audio port on its own leaves
everything else. -/
def asked (a : Advertiser) : Request → AdvertisedFields
  | .refresh servicePort syncPort corePort audioPort configHead =>
      { a.fields with
        servicePort := servicePort
        syncPort := syncPort
        corePort := corePort
        audioPort := audioPort
        configHead := configHead }
  | .setAudioPort audioPort => { a.fields with audioPort := audioPort }

/-- A call asks for nothing that would change the name. -/
@[simp] theorem asked_displayName (a : Advertiser) (request : Request) :
    (a.asked request).displayName = a.fields.displayName := by
  cases request <;> rfl

/-- **What a call does**, and what it returns: there are four ways it may end. -/
inductive Calls (macos : Bool) (answers : MdnsAnswers) (a : Advertiser) (asked : AdvertisedFields) :
    Advertiser × Except AdvertiseError Unit → Prop
  /-- The interfaces cannot be followed, and nothing else is tried. -/
  | unseen (p : InterfacePolicy) (e : String)
      (look : a.interfaces.refresh macos answers = (p, .error e)) :
      Calls macos answers a asked ({ a with interfaces := p }, .error (.mdns e))
  /-- There is nothing to announce: the fields are the stored ones and no address is due. -/
  | settled (p : InterfacePolicy) (look : a.interfaces.refresh macos answers = (p, .ok false))
      (calm : a.reannounce = false) (same : asked = a.fields) :
      Calls macos answers a asked ({ a with interfaces := p }, .ok ())
  /-- What there is to announce is not registered, and an address stays due. -/
  | unregistered (p : InterfacePolicy) (changed : Bool) (e : String)
      (look : a.interfaces.refresh macos answers = (p, .ok changed))
      (due : asked = a.fields → (a.reannounce || changed) = true)
      (failed : buildServiceInfo answers asked p.advertisedAddresses = .error (.mdns e) ∨
        answers.register = some e) :
      Calls macos answers a asked
        ({ a with interfaces := p, reannounce := a.reannounce || changed }, .error (.mdns e))
  /-- It is registered, and from then on the fields are the stored ones and no address is due. -/
  | registered (p : InterfacePolicy) (changed : Bool)
      (look : a.interfaces.refresh macos answers = (p, .ok changed))
      (due : asked = a.fields → (a.reannounce || changed) = true)
      (made : buildServiceInfo answers asked p.advertisedAddresses =
        .ok (serviceInfo asked p.advertisedAddresses (hostname answers)))
      (accepted : answers.register = none) :
      Calls macos answers a asked
        ({ a with
          daemon := serviceInfo asked p.advertisedAddresses (hostname answers) :: a.daemon
          fields := asked
          interfaces := p
          reannounce := false }, .ok ())

variable {macos : Bool} {answers : MdnsAnswers} {a b : Advertiser} {request : Request}
  {r : Except AdvertiseError Unit}

/-- A record that is made is the one that was asked for. -/
theorem buildServiceInfo_ok {f : AdvertisedFields} {addresses : List IpAddr} {info : ServiceInfo}
    (h : buildServiceInfo answers f addresses = .ok info) :
    info = serviceInfo f addresses (hostname answers) := by
  unfold buildServiceInfo at h
  cases hnew : answers.newService (serviceRequest f addresses (hostname answers)) with
  | error e =>
      rw [hnew] at h
      cases h
  | ok made =>
      rw [hnew] at h
      cases h
      exact answers.newService_ok _ _ hnew

/-- It fails as the library does, never because of the name. -/
theorem buildServiceInfo_error {f : AdvertisedFields} {addresses : List IpAddr} {e : AdvertiseError}
    (h : buildServiceInfo answers f addresses = .error e) : ∃ e', e = .mdns e' := by
  unfold buildServiceInfo at h
  cases hnew : answers.newService (serviceRequest f addresses (hostname answers)) with
  | error e' =>
      rw [hnew] at h
      cases h
      exact ⟨e', rfl⟩
  | ok made =>
      rw [hnew] at h
      cases h

/-- A refresh ends in one of the four ways. -/
theorem refresh_calls (macos : Bool) (answers : MdnsAnswers) (a : Advertiser)
    (servicePort syncPort corePort audioPort : UInt16) (configHead : String) :
    Calls macos answers a (a.asked (.refresh servicePort syncPort corePort audioPort configHead))
      (a.refresh macos answers servicePort syncPort corePort audioPort configHead) := by
  unfold refresh
  dsimp only
  split
  · next p e look => exact .unseen p e look
  · next p changed look =>
    split
    · next hsettled =>
      obtain ⟨hfields, hcalm⟩ := hsettled
      rw [Bool.or_eq_false_iff] at hcalm
      obtain ⟨hreannounce, rfl⟩ := hcalm
      rw [hreannounce, Bool.or_false, ← hreannounce]
      exact .settled p look hreannounce hfields
    · next hdue =>
      -- what is not settled is due
      have due : a.asked (.refresh servicePort syncPort corePort audioPort configHead) = a.fields →
          (a.reannounce || changed) = true := by
        intro hfields
        by_contra hcalm
        exact hdue ⟨hfields, Bool.not_eq_true _ ▸ hcalm⟩
      split
      · next e hnew =>
        obtain ⟨e, rfl⟩ := buildServiceInfo_error hnew
        exact .unregistered p changed e look due (Or.inl hnew)
      · next service hnew =>
        obtain rfl := buildServiceInfo_ok hnew
        split
        · next e hregister => exact .unregistered p changed e look due (Or.inr hregister)
        · next hregister => exact .registered p changed look due hnew hregister

/-- Both methods are one: every call ends in one of the four ways. -/
theorem call_calls (macos : Bool) (answers : MdnsAnswers) (a : Advertiser) (request : Request) :
    Calls macos answers a (a.asked request) (a.call macos answers request) := by
  cases request with
  | refresh servicePort syncPort corePort audioPort configHead => exact refresh_calls ..
  | setAudioPort audioPort => exact refresh_calls ..

/-! ## What is announced -/

/-- The record that is announced, under the name of the instance. -/
def record (a : Advertiser) : Option ServiceInfo := a.daemon.record a.fullName

/-- The addresses that are announced, as they are in the record. -/
def announced (a : Advertiser) : Option (List IpAddr) := a.record.map (·.addresses)

/-- The addresses that should be announced, by the last look at the interfaces. -/
def current (a : Advertiser) : Option (List IpAddr) := some a.interfaces.advertisedAddresses

/-- **The invariant**: the record is made of the stored fields, and of the current addresses unless
`reannounce` is up. -/
structure Announced (a : Advertiser) : Prop where
  name : '.' ∉ a.fields.displayName.toList
  fullName : a.fullName = a.fields.displayName ++ "." ++ serviceType
  record : ∃ addresses host, a.record = some (serviceInfo a.fields addresses host)
  covered : Pending.Covered reannounce current announced a

/-- A new record takes the place of the old one. -/
theorem record_register {daemon : ServiceDaemon} {f : AdvertisedFields} {addresses : List IpAddr}
    {host fullName : String} (h : fullName = f.displayName ++ "." ++ serviceType) :
    ServiceDaemon.record (serviceInfo f addresses host :: daemon) fullName =
      some (serviceInfo f addresses host) :=
  List.find?_cons_of_pos (by simp [h, serviceInfo, serviceRequest, ServiceRequest.record])

/-- **A call that fails** announces nothing, and remembers an address that it has seen change. -/
theorem Calls.remembers {asked : AdvertisedFields} {e : AdvertiseError}
    (h : Calls macos answers a asked (b, .error e)) :
    b.daemon = a.daemon ∧ b.fullName = a.fullName ∧ b.fields = a.fields ∧
      (b.reannounce = false →
        a.reannounce = false ∧ b.interfaces.addresses = a.interfaces.addresses) := by
  cases h with
  | unseen p e look =>
      exact ⟨rfl, rfl, rfl, fun hcalm => ⟨hcalm, InterfacePolicy.refresh_error look⟩⟩
  | unregistered p changed e look due failed =>
      refine ⟨rfl, rfl, rfl, fun hcalm => ?_⟩
      obtain ⟨hdown, hchanged⟩ := Bool.or_eq_false_iff.mp hcalm
      exact ⟨hdown, (InterfacePolicy.refresh_ok look).mp hchanged⟩

/-- **A call that succeeds** has announced what it was asked for, now or before. -/
theorem Calls.succeeds {asked : AdvertisedFields} (h : Calls macos answers a asked (b, .ok ())) :
    b.fields = asked ∧ b.reannounce = false := by
  cases h with
  | settled p look calm same => exact ⟨same.symm, calm⟩
  | registered => exact ⟨rfl, rfl⟩

/-- It registers a record if the flag was up. -/
theorem Calls.registers (h : Calls macos answers a (a.asked request) (b, .ok ()))
    (ha : a.Announced) (up : a.reannounce = true) :
    ∃ info, b.daemon = info :: a.daemon ∧ b.record = some info ∧
      info.addresses = b.interfaces.advertisedAddresses := by
  cases h with
  | settled p look calm same =>
      rw [up] at calm
      cases calm
  | registered =>
      refine ⟨_, rfl, record_register ?_, rfl⟩
      rw [asked_displayName]
      exact ha.fullName

/-- The addresses to announce depend on those of the interfaces only. -/
theorem current_congr (h : b.interfaces.addresses = a.interfaces.addresses) :
    b.current = a.current := by
  rw [current, current, InterfacePolicy.advertisedAddresses, InterfacePolicy.advertisedAddresses, h]

/-- **A call keeps the invariant**, whatever fails in it. -/
theorem Calls.keeps (h : Calls macos answers a (a.asked request) (b, r)) (ha : a.Announced) :
    b.Announced := by
  cases r with
  | error e =>
      obtain ⟨hdaemon, hfullName, hfields, hremembers⟩ := h.remembers
      have hrecord : b.record = a.record := by rw [record, record, hdaemon, hfullName]
      refine ⟨hfields ▸ ha.name, ?_, hrecord ▸ hfields ▸ ha.record, ?_⟩
      · rw [hfullName, hfields, ha.fullName]
      · have hstep : Pending.Step reannounce current announced a b := by
          refine .defer (congrArg (Option.map _) hrecord) fun hcalm => ?_
          obtain ⟨hdown, hsame⟩ := hremembers hcalm
          exact ⟨hdown, current_congr hsame⟩
        exact hstep.covered ha.covered
  | ok u =>
      cases h with
      | settled p look calm same =>
          have hsame : p.addresses = a.interfaces.addresses :=
            (InterfacePolicy.refresh_ok look).mp rfl
          have hstep : Pending.Step reannounce current announced a { a with interfaces := p } :=
            .defer rfl fun _ => ⟨calm, current_congr hsame⟩
          exact ⟨ha.name, ha.fullName, ha.record, hstep.covered ha.covered⟩
      | registered p changed look due made accepted =>
          -- no call changes the display name, so the new record replaces the old one
          have hfullName : a.fullName = (a.asked request).displayName ++ "." ++ serviceType := by
            rw [asked_displayName, ha.fullName]
          have hrecord := @record_register a.daemon _ p.advertisedAddresses (hostname answers) _
            hfullName
          refine ⟨?_, hfullName, ⟨_, _, hrecord⟩, fun _ => congrArg (Option.map _) hrecord⟩
          rw [asked_displayName]
          exact ha.name

/-- **What a start that succeeds leaves**: a name that can be announced, and one record with the
addresses of the first look. -/
theorem start_eq_ok {machineId fingerprint displayName configHead : String}
    {servicePort syncPort corePort audioPort : UInt16}
    (h : start macos answers machineId fingerprint displayName servicePort syncPort corePort audioPort
      configHead = .ok a) :
    '.' ∉ a.fields.displayName.toList ∧
      (∃ changed, InterfacePolicy.default.refresh macos answers = (a.interfaces, .ok changed)) ∧
      a.fullName = a.fields.displayName ++ "." ++ serviceType ∧
      a.daemon =
        [serviceInfo a.fields a.interfaces.advertisedAddresses (hostname answers)] := by
  unfold start at h
  split at h
  · cases h
  -- every way out but the last is an error
  next hname =>
  rw [not_or] at hname
  split at h
  · cases h
  split at h
  · cases h
  next p changed look =>
  dsimp only at h
  split at h
  · cases h
  next service hservice =>
  obtain rfl := buildServiceInfo_ok hservice
  split at h
  · cases h
  · cases h
    exact ⟨hname.2, ⟨changed, look⟩, rfl, rfl⟩

/-- A start that succeeds has announced what it was started with. -/
theorem start_announced {machineId fingerprint displayName configHead : String}
    {servicePort syncPort corePort audioPort : UInt16}
    (h : start macos answers machineId fingerprint displayName servicePort syncPort corePort audioPort
      configHead = .ok a) : a.Announced := by
  obtain ⟨hname, -, hfullName, hdaemon⟩ := start_eq_ok h
  have hrecord : a.record = some (serviceInfo a.fields a.interfaces.advertisedAddresses
      (hostname answers)) := by
    rw [record, hdaemon]
    exact record_register hfullName
  exact ⟨hname, hfullName, ⟨_, _, hrecord⟩, fun _ => congrArg (Option.map _) hrecord⟩

/-- The interfaces are looked at in every call, before anything else. -/
theorem call_interfaces (macos : Bool) (answers : MdnsAnswers) (a : Advertiser) (request : Request) :
    (a.call macos answers request).1.interfaces = (a.interfaces.refresh macos answers).1 := by
  have h := call_calls macos answers a request
  generalize a.call macos answers request = after at h ⊢
  cases h with
  | unseen p e look => rw [look]
  | settled p look => rw [look]
  | unregistered p changed e look => rw [look]
  | registered p changed look => rw [look]

/-! ## Any number of calls -/

section Runs

variable (macos : Bool) (a : Advertiser) (calls : List (Request × MdnsAnswers))

/-- The advertiser after the first `n` calls, each as the machine and the daemon answered it. -/
def after (n : ℕ) : Advertiser := Run.after (fun a c => (a.call macos c.2 c.1).1) a calls n

/-- What the call with this number returns, if there is one. -/
def outcome (n : ℕ) : Option (Except AdvertiseError Unit) :=
  calls[n]?.map fun c => ((a.after macos calls n).call macos c.2 c.1).2

variable {macos a calls} {n i j : ℕ}

/-- One call more. -/
theorem after_succ {c : Request × MdnsAnswers} (h : calls[n]? = some c) :
    a.after macos calls (n + 1) = ((a.after macos calls n).call macos c.2 c.1).1 :=
  Run.after_succ h

/-- Each outcome is that of a call, made where the calls before it have led. -/
theorem outcome_eq_some (h : a.outcome macos calls n = some r) :
    ∃ c, calls[n]? = some c ∧
      Calls macos c.2 (a.after macos calls n) ((a.after macos calls n).asked c.1)
        (a.after macos calls (n + 1), r) := by
  obtain ⟨c, hc, rfl⟩ := Option.map_eq_some_iff.mp h
  refine ⟨c, hc, ?_⟩
  rw [after_succ hc]
  exact call_calls macos c.2 (a.after macos calls n) c.1

/-- What is announced is right after any number of calls. -/
theorem announced_after (ha : a.Announced) (n : ℕ) : (a.after macos calls n).Announced :=
  Run.invariant ha (fun _ c _ h => (call_calls macos c.2 _ c.1).keeps h) n

/-- What the readers of the record get is what is stored. -/
theorem Announced.fieldsOf_record (ha : a.Announced) :
    ∃ info, a.record = some info ∧ fieldsOf info = some a.fields := by
  obtain ⟨addresses, host, hrecord⟩ := ha.record
  exact ⟨_, hrecord, fieldsOf_serviceInfo addresses host ha.name⟩

/-- An address that a failing call has seen change is not forgotten by those that fail after it. -/
theorem reannounce_stays (hij : i < j) {e : AdvertiseError}
    (hfailed : a.outcome macos calls i = some (.error e))
    (hchanged : (a.after macos calls (i + 1)).interfaces.addresses ≠
      (a.after macos calls i).interfaces.addresses)
    (hbetween : ∀ k, i < k → k < j → ∃ e, a.outcome macos calls k = some (.error e)) :
    (a.after macos calls j).reannounce = true := by
  refine Pending.flag_stays hij ?_ fun k c hik hkj hc hdown => ?_
  · -- the call that sees the change leaves the flag up
    obtain ⟨c, -, hcall⟩ := outcome_eq_some hfailed
    obtain ⟨-, -, -, hremembers⟩ := hcall.remembers
    by_contra hdown
    exact hchanged (hremembers (Bool.not_eq_true _ ▸ hdown)).2
  · -- and no call that fails takes it down
    obtain ⟨e, hfails⟩ := hbetween k hik hkj
    obtain ⟨c', hc', hcall⟩ := outcome_eq_some hfails
    obtain rfl : c = c' := Option.some.inj (hc.symm.trans hc')
    obtain ⟨-, -, -, hremembers⟩ := hcall.remembers
    refine (hremembers ?_).1
    rw [after_succ hc]
    exact hdown

/-- **What is announced follows what was asked for**, at any time of a run of calls. -/
structure Converges (macos : Bool) (a : Advertiser) (calls : List (Request × MdnsAnswers)) :
    Prop where
  /-- The stored fields are those of the record at any time, as its readers get them. -/
  stored : ∀ n, ∃ info, (a.after macos calls n).record = some info ∧
    fieldsOf info = some (a.after macos calls n).fields
  /-- After a call that succeeds, the record has what the call asked for and the addresses there
  are. -/
  answered : ∀ n c, calls[n]? = some c → a.outcome macos calls n = some (.ok ()) →
    ∃ info, (a.after macos calls (n + 1)).record = some info ∧
      fieldsOf info = some ((a.after macos calls n).asked c.1) ∧
      info.addresses = (a.after macos calls (n + 1)).interfaces.advertisedAddresses
  /-- A change of addresses that a failing call has seen is registered by the next call that
  succeeds, whatever that one asks for or sees. -/
  caughtUp : ∀ i j, i < j → (∃ e, a.outcome macos calls i = some (.error e)) →
    (a.after macos calls (i + 1)).interfaces.addresses ≠
      (a.after macos calls i).interfaces.addresses →
    (∀ k, i < k → k < j → ∃ e, a.outcome macos calls k = some (.error e)) →
    a.outcome macos calls j = some (.ok ()) →
    ∃ info, (a.after macos calls (j + 1)).daemon = info :: (a.after macos calls j).daemon ∧
      (a.after macos calls (j + 1)).record = some info ∧
      info.addresses = (a.after macos calls (j + 1)).interfaces.advertisedAddresses

/-- **The advertisement converges**, from every start and through any calls. -/
theorem advertisement_converges {startAnswers : MdnsAnswers}
    {machineId fingerprint displayName configHead : String}
    {servicePort syncPort corePort audioPort : UInt16}
    (started : start macos startAnswers machineId fingerprint displayName servicePort syncPort
      corePort audioPort configHead = .ok a) (calls : List (Request × MdnsAnswers)) :
    Converges macos a calls := by
  have hannounced : ∀ n, (a.after macos calls n).Announced :=
    announced_after (start_announced started)
  constructor
  case stored => exact fun n => (hannounced n).fieldsOf_record
  case answered =>
    intro n c hc hok
    obtain ⟨c', hc', hcall⟩ := outcome_eq_some hok
    obtain rfl : c = c' := Option.some.inj (hc.symm.trans hc')
    obtain ⟨hfields, hdown⟩ := hcall.succeeds
    obtain ⟨info, hrecord, hinfo⟩ := (hannounced (n + 1)).fieldsOf_record
    refine ⟨info, hrecord, hfields ▸ hinfo, ?_⟩
    -- the flag is down, so the announced addresses are the current ones
    have hcovered := (hannounced (n + 1)).covered hdown
    rw [announced, hrecord, current] at hcovered
    exact Option.some.inj hcovered
  case caughtUp =>
    rintro i j hij ⟨e, hfailed⟩ hchanged hbetween hok
    obtain ⟨c, -, hcall⟩ := outcome_eq_some hok
    exact hcall.registers (hannounced j) (reannounce_stays hij hfailed hchanged hbetween)

/-- A machine with one address on its LAN, where nothing fails. -/
def oneInterface : MdnsAnswers :=
  { MdnsAnswers.calm with
    getIfAddrs := some [⟨"lo", .v4 0x7f000001#32, true⟩, ⟨"en0", .v4 0xc0a80025#32, false⟩]
    procHostname := some "alpha\n" }

/-- A machine named alpha: it starts, and what it announces follows any calls. -/
theorem advertisement_converges_alpha :
    ∃ a, start false oneInterface "id" "fp" "alpha" 24850 24851 24800 0 "" = .ok a ∧
      ∀ calls, Converges false a calls := by
  have hstart : ∃ a, start false oneInterface "id" "fp" "alpha" 24850 24851 24800 0 "" = .ok a :=
    ⟨_, rfl⟩
  obtain ⟨a, started⟩ := hstart
  exact ⟨a, started, fun calls => advertisement_converges started calls⟩

/-- **Only the LAN is announced**: an address that is to be announced belongs to an enabled
interface, and none that is excluded ever is. -/
theorem advertised_lanOnly {startAnswers : MdnsAnswers}
    {machineId fingerprint displayName configHead : String}
    {servicePort syncPort corePort audioPort : UInt16}
    (started : start macos startAnswers machineId fingerprint displayName servicePort syncPort
      corePort audioPort configHead = .ok a) (n : ℕ) {ip : IpAddr}
    (hip : ip ∈ (a.after macos calls n).interfaces.advertisedAddresses) :
    ∃ name ∈ (a.after macos calls n).interfaces.enabled,
      (name, ip) ∈ (a.after macos calls n).interfaces.addresses ∧ excluded name macos = false := by
  have hstart : InterfacePolicy.LanOnly macos a.interfaces.enabled a.interfaces.addresses := by
    obtain ⟨-, ⟨changed, hlook⟩, -⟩ := start_eq_ok started
    have look := InterfacePolicy.refresh_looks macos startAnswers .default
    rw [hlook] at look
    exact look.lanOnly ⟨by simp [InterfacePolicy.default], by simp [InterfacePolicy.default]⟩
  have hlan : InterfacePolicy.LanOnly macos (a.after macos calls n).interfaces.enabled
      (a.after macos calls n).interfaces.addresses := by
    refine Run.invariant (P := fun a : Advertiser =>
      InterfacePolicy.LanOnly macos a.interfaces.enabled a.interfaces.addresses) hstart
      (fun _ c _ h => ?_) n
    rw [call_interfaces]
    exact (InterfacePolicy.refresh_looks macos c.2 _).lanOnly h
  obtain ⟨name, hname⟩ := InterfacePolicy.mem_advertisedAddresses.mp hip
  have henabled := hlan.listed _ hname
  exact ⟨name, henabled, hname, hlan.allowed name henabled⟩

end Runs

end Advertiser

end Synbad
