import Synbad.Lib.Roster
import Synbad.Lib.Run
import Synbad.Sync.Confirmed
import Mathlib.Data.List.AList
import Mathlib.Data.List.Sort
import Mathlib.Data.Prod.Lex

/-! # The service browser

`browser.rs`: the thread that turns what mDNS says about service instances into `Found` and `Lost`
events for the supervisor, whose map of peers it never sees. It remembers the record each instance
last resolved to by the instance's full name, while the supervisor knows machines by their id. Both
follow the same instances: `live` is what there is, and the view the supervisor has of it should be
exact.

That the browser follows is kept by every event (`Tracked`). That the supervisor's view is exact is
not: an instance may resolve anew with another machine's id, or with ours, and nobody tells the
supervisor that the first machine is gone. `Keeps` says event by event when that does no harm, and
`view_exact_iff` that over a run the view stays exact exactly if every event is of that kind. What an
event can do comes in six cases (`Follows`), and each of them has its lemma. -/

namespace Synbad

/-! ## Addresses -/

/-- `std::net::IpAddr`: an address of one of the two families, as its bits. -/
inductive IpAddr where
  | v4 (bits : BitVec 32)
  | v6 (bits : BitVec 128)
  deriving DecidableEq, Repr

namespace IpAddr

/-- `is_loopback`: `127.0.0.0/8` and `::1`. -/
def isLoopback : IpAddr → Bool
  | .v4 bits => bits.extractLsb' 24 8 == 127#8
  | .v6 bits => bits == 1#128

/-- `is_ipv6`, which the addresses are sorted by after `is_loopback`. -/
def isIpv6 : IpAddr → Bool
  | .v4 _ => false
  | .v6 _ => true

/-- `Ipv6Addr::is_unicast_link_local` of an IPv6 address: `fe80::/10`. -/
def isV6LinkLocal : IpAddr → Bool
  | .v4 _ => false
  | .v6 bits => bits.extractLsb' 112 16 &&& 0xffc0#16 == 0xfe80#16

/-- The address as a number, by which those of one family are ordered. -/
def toNat : IpAddr → ℕ
  | .v4 bits => bits.toNat
  | .v6 bits => bits.toNat

/-- The four octets, from the left of the text to its right. -/
def octets (bits : BitVec 32) : List ℕ := [24, 16, 8, 0].map fun i => (bits.extractLsb' i 8).toNat

/-- The eight segments of sixteen bits, from the left of the text to its right. -/
def segments (bits : BitVec 128) : List ℕ :=
  [112, 96, 80, 64, 48, 32, 16, 0].map fun i => (bits.extractLsb' i 16).toNat

/-- The `Display` of an `Ipv4Addr`: its octets in decimal, with dots. -/
def v4Text (bits : BitVec 32) : String := String.intercalate "." ((octets bits).map toString)

/-- Some segments in hexadecimal, without leading zeros, with colons between them. -/
def segmentsText (segments : List ℕ) : String :=
  String.intercalate ":" (segments.map fun n => String.ofList (Nat.toDigits 16 n))

/-- The first longest run of zero segments, as its start and length. -/
def zeroRun (segments : List ℕ) : ℕ × ℕ :=
  (List.range segments.length).foldl
    (fun best i =>
      let length := ((segments.drop i).takeWhile (· == 0)).length
      if best.2 < length then (i, length) else best)
    (0, 0)

/-- The `Display` of an `Ipv6Addr`: a mapped IPv4 address shows as such, and a run of at least two
zero segments is left out. -/
def v6Text (bits : BitVec 128) : String :=
  if bits.extractLsb' 32 96 = 0xffff#96 then "::ffff:" ++ v4Text (bits.extractLsb' 0 32)
  else
    let (start, length) := zeroRun (segments bits)
    if 1 < length then
      segmentsText ((segments bits).take start) ++ "::" ++
        segmentsText ((segments bits).drop (start + length))
    else segmentsText (segments bits)

/-- The `Display` of an `IpAddr`, as it is dialled. -/
def text : IpAddr → String
  | .v4 bits => v4Text bits
  | .v6 bits => v6Text bits

/-- The key `peer_from` sorts by: loopback last, and IPv4 before IPv6. -/
def sortKey (ip : IpAddr) : Bool ×ₗ Bool ×ₗ ℕ := toLex (ip.isLoopback, toLex (ip.isIpv6, ip.toNat))

end IpAddr

example : (IpAddr.v6 0xfd000000000000000000000000000001#128).text = "fd00::1" := by decide +kernel

/-! ## Records -/

/-- What `mdns_sd::ServiceInfo` answers about a resolved instance, whoever has announced it. -/
structure ServiceInfo where
  /-- `get_fullname`: the name of the instance, in front of that of the service. -/
  fullname : String
  /-- `get_hostname`, which is dialled if there is no address. -/
  hostname : String
  /-- `get_port`: the port of the record itself. -/
  port : ℕ
  /-- `get_addresses`, in the order they are gone through. -/
  addresses : List IpAddr
  /-- `get_property_val_str` of the TXT record, if the key is there and has a text. -/
  property : String → Option String

/-- `str::parse` of an unsigned integer of this width: decimal digits, after a plus sign or none. -/
def parseUnsigned (width : ℕ) (s : String) : Option ℕ :=
  let digits := match s.toList with
    | '+' :: rest => rest
    | rest => rest
  if digits.isEmpty || !digits.all Char.isDigit then none
  else
    let n := digits.foldl (fun n c => 10 * n + (c.toNat - '0'.toNat)) 0
    if n < 2 ^ width then some n else none

/-- The addresses of a record: every one that is neither loopback nor link-local, sorted. -/
def candidateAddresses (addresses : List IpAddr) : List String :=
  ((addresses.filter fun ip => !ip.isLoopback && !ip.isV6LinkLocal).insertionSort
    fun a b => a.sortKey ≤ b.sortKey).map IpAddr.text

/-- `peer_from`: the machine a record is about; one without an id or a fingerprint is of none. -/
def peerFrom (info : ServiceInfo) : Option DiscoveredPeer := do
  let machineId ← info.property "id"
  let fingerprint ← info.property "fp"
  let addresses := candidateAddresses info.addresses
  let port key := ((info.property key).bind (parseUnsigned 16)).getD 0
  return {
    machineId := machineId
    displayName := String.ofList (info.fullname.toList.takeWhile (· ≠ '.'))
    host := addresses.head?.getD info.hostname
    addresses := addresses
    servicePort := info.port
    corePort := port "core_port"
    syncPort := port "sync_port"
    audioPort := port "audio_port"
    fingerprint := fingerprint
    protocolVersion := ((info.property "v").bind (parseUnsigned 32)).getD 0
    configHead := (info.property "cfg").getD "" }

/-! ## The pump -/

/-- `mdns_sd::ServiceEvent`. The events about the search itself change no record. -/
inductive ServiceEvent where
  | serviceResolved (info : ServiceInfo)
  | serviceRemoved (fullName : String)
  | other

/-- `DiscoveryEvent`: what the supervisor hears of a machine. -/
inductive DiscoveryEvent where
  | found (peer : DiscoveredPeer)
  | lost (machineId : String)
  deriving DecidableEq, Repr

/-- What `pump_events` knows: our own id and the record of each instance, `full_to_peer`. -/
structure Browser where
  ownId : String
  fullToPeer : AList fun _ : String => DiscoveredPeer

namespace Browser

/-- Another instance is remembered with this machine id, so the machine is not lost. -/
def knows (records : AList fun _ : String => DiscoveredPeer) (machineId : String) : Bool :=
  records.entries.any fun e => e.2.machineId == machineId

/-- One event through `pump_events`, and what it sends, if anything. -/
def pumpEvent (b : Browser) : ServiceEvent → Browser × Option DiscoveryEvent
  | .serviceResolved info =>
      match peerFrom info with
      | none => (b, none)
      | some peer =>
          if peer.machineId = b.ownId then (b, none)
          else if b.fullToPeer.lookup info.fullname = some peer then (b, none)
          else ({ b with fullToPeer := b.fullToPeer.insert info.fullname peer }, some (.found peer))
  | .serviceRemoved fullName =>
      match b.fullToPeer.extract fullName with
      | (none, _) => (b, none)
      | (some peer, rest) =>
          ({ b with fullToPeer := rest },
            if knows rest peer.machineId then none else some (.lost peer.machineId))
  | .other => (b, none)

end Browser

/-- `handle_discovery`, with what the supervisor does about a peer that is found or lost. -/
def Node.handleDiscovery (deps : SyncDeps) (out : Outside) (n : Node) : DiscoveryEvent → Node
  | .found peer => n.found deps out peer
  | .lost machineId => n.lost machineId

/-! ## The instances, the browser and the supervisor -/

/-- The instances that are live, each with its latest record, and the two maps that follow them. The
events between the two are a channel, so they are handled in the order they are sent. -/
structure Discovery where
  live : String → Option DiscoveredPeer
  browser : Browser
  node : Node

namespace Discovery

/-- Nothing has been resolved yet, and the supervisor knows of no peer. -/
def start (ownId : String) (s : Supervisor) (trust : TrustedPeerStore) : Discovery where
  live := fun _ => none
  browser := ⟨ownId, ∅⟩
  node := Node.new s trust

/-- What an event says about the instances: which are there, with their latest records. -/
def liveAfter (live : String → Option DiscoveredPeer) :
    ServiceEvent → String → Option DiscoveredPeer
  | .serviceResolved info =>
      match peerFrom info with
      | none => live
      | some peer => mapInsert live info.fullname peer
  | .serviceRemoved fullName => mapRemove live fullName
  | .other => live

/-- One mDNS event through the browser and the supervisor. -/
def step (deps : SyncDeps) (d : Discovery) (input : Outside × ServiceEvent) : Discovery :=
  let (browser, sent) := d.browser.pumpEvent input.2
  { live := liveAfter d.live input.2
    browser := browser
    node := match sent with
      | none => d.node
      | some ev => d.node.handleDiscovery deps input.1 ev }

/-- The supervisor's peers are exactly the live instances, by machine id and ourselves apart. -/
abbrev Exact (d : Discovery) : Prop :=
  Roster.Exact DiscoveredPeer.machineId d.browser.ownId d.live d.node.peers

end Discovery

/-! ## What an event does -/

namespace Node

variable {deps : SyncDeps} {out : Outside}

/-- Whatever else a found peer sets off, it is put into the map. -/
theorem found_peers (n : Node) (peer : DiscoveredPeer) :
    (n.found deps out peer).peers = mapInsert n.peers peer.machineId peer := by
  unfold found
  by_cases hsame : (n.peers peer.machineId).any fun p => unchanged p peer
  · simp [hsame]
  · simp only [hsame, Bool.false_eq_true, if_false]
    rw [(maybePullFrom_pulled _ peer).frame]

/-- Aborting a session touches no peer. -/
theorem abort_peers (n : Node) (id : ℕ) : (n.abort id).peers = n.peers := by
  unfold abort
  cases n.outbound[id]? <;> rfl

/-- And a machine that is lost is gone from it, and no other. -/
theorem lost_peers (n : Node) (machineId : String) :
    (n.lost machineId).peers = mapRemove n.peers machineId := by
  unfold lost
  cases hpeer : n.peers machineId with
  | none => exact (Function.update_eq_self_iff.mpr hpeer.symm).symm
  | some peer =>
      cases htask : n.syncTasks machineId with
      | none => simp [htask]
      | some task => simp [htask, abort_peers]

end Node

namespace Browser

/-- A machine id is known exactly if some remembered record has it. -/
theorem knows_iff {records : AList fun _ : String => DiscoveredPeer} {machineId : String} :
    knows records machineId = true ↔
      ∃ f p, records.lookup f = some p ∧ p.machineId = machineId := by
  simp only [knows, List.any_eq_true, beq_iff_eq]
  constructor
  · rintro ⟨⟨f, p⟩, hmem, hid⟩
    exact ⟨f, p, AList.mem_lookup_iff.mpr hmem, hid⟩
  · rintro ⟨f, p, hlookup, hid⟩
    exact ⟨⟨f, p⟩, AList.mem_lookup_iff.mp hlookup, hid⟩

/-- What is found after a record has been remembered. -/
theorem lookup_insert_eq (records : AList fun _ : String => DiscoveredPeer) (f : String)
    (p : DiscoveredPeer) :
    (fun g => (records.insert f p).lookup g) = mapInsert (fun g => records.lookup g) f p := by
  funext g
  by_cases hg : g = f
  · rw [hg, AList.lookup_insert, mapInsert, Function.update_self]
  · rw [AList.lookup_insert_ne hg, mapInsert, Function.update_of_ne hg]

/-- What is found after a record has been forgotten. -/
theorem lookup_erase_eq (records : AList fun _ : String => DiscoveredPeer) (f : String) :
    (fun g => (records.erase f).lookup g) = mapRemove (fun g => records.lookup g) f := by
  funext g
  by_cases hg : g = f
  · rw [hg, AList.lookup_erase, mapRemove, Function.update_self]
  · rw [AList.lookup_erase_ne hg, mapRemove, Function.update_of_ne hg]

end Browser

namespace Discovery

open Browser

variable {deps : SyncDeps}

/-- Some other instance is remembered with this machine id. -/
def KnownElsewhere (d : Discovery) (fullName machineId : String) : Prop :=
  ∃ g p, g ≠ fullName ∧ d.browser.fullToPeer.lookup g = some p ∧ p.machineId = machineId

/-- Everything a step can do to the three maps. -/
inductive Follows (d d' : Discovery) : ServiceEvent → Prop where
  /-- Nothing about a record: nothing changes in any of the three. -/
  | silent {e : ServiceEvent} (hevent : ∀ f, e ≠ .serviceRemoved f)
      (hinfo : ∀ info, e = .serviceResolved info → peerFrom info = none) (h : d' = d) :
      Follows d d' e
  /-- Our own advertisement, which the browser passes over. -/
  | own {info : ServiceInfo} {peer : DiscoveredPeer} (hpeer : peerFrom info = some peer)
      (hown : peer.machineId = d.browser.ownId)
      (h : d' = { d with live := mapInsert d.live info.fullname peer }) :
      Follows d d' (.serviceResolved info)
  /-- A record that is remembered already is passed over too. -/
  | known {info : ServiceInfo} {peer : DiscoveredPeer} (hpeer : peerFrom info = some peer)
      (hown : peer.machineId ≠ d.browser.ownId)
      (hknown : d.browser.fullToPeer.lookup info.fullname = some peer)
      (h : d' = { d with live := mapInsert d.live info.fullname peer }) :
      Follows d d' (.serviceResolved info)
  | found {info : ServiceInfo} {peer : DiscoveredPeer} (hpeer : peerFrom info = some peer)
      (hown : peer.machineId ≠ d.browser.ownId)
      (hnew : d.browser.fullToPeer.lookup info.fullname ≠ some peer)
      (hlive : d'.live = mapInsert d.live info.fullname peer)
      (hbrowser : d'.browser = { d.browser with
        fullToPeer := d.browser.fullToPeer.insert info.fullname peer })
      (hpeers : d'.node.peers = mapInsert d.node.peers peer.machineId peer) :
      Follows d d' (.serviceResolved info)
  /-- An instance that is not remembered goes, and nobody hears of it. -/
  | unknown {fullName : String} (hunknown : d.browser.fullToPeer.lookup fullName = none)
      (h : d' = { d with live := mapRemove d.live fullName }) :
      Follows d d' (.serviceRemoved fullName)
  /-- One goes whose machine id another instance is remembered with. -/
  | shared {fullName : String} {peer : DiscoveredPeer}
      (hknown : d.browser.fullToPeer.lookup fullName = some peer)
      (hshared : d.KnownElsewhere fullName peer.machineId)
      (h : d' = { d with
        live := mapRemove d.live fullName
        browser := { d.browser with fullToPeer := d.browser.fullToPeer.erase fullName } }) :
      Follows d d' (.serviceRemoved fullName)
  | lost {fullName : String} {peer : DiscoveredPeer}
      (hknown : d.browser.fullToPeer.lookup fullName = some peer)
      (hlast : ¬ d.KnownElsewhere fullName peer.machineId)
      (hlive : d'.live = mapRemove d.live fullName)
      (hbrowser : d'.browser = { d.browser with
        fullToPeer := d.browser.fullToPeer.erase fullName })
      (hpeers : d'.node.peers = mapRemove d.node.peers peer.machineId) :
      Follows d d' (.serviceRemoved fullName)

/-- The instances after a step are as the event says. -/
theorem step_live (d : Discovery) (input : Outside × ServiceEvent) :
    (d.step deps input).live = liveAfter d.live input.2 := rfl

/-- After an instance is forgotten its machine is known exactly if another one has it. -/
theorem knows_erase_iff (d : Discovery) (fullName machineId : String) :
    knows (d.browser.fullToPeer.erase fullName) machineId = true ↔
      d.KnownElsewhere fullName machineId := by
  rw [knows_iff]
  constructor
  · rintro ⟨g, p, hlookup, hid⟩
    by_cases hg : g = fullName
    · rw [hg, AList.lookup_erase] at hlookup
      cases hlookup
    · rw [AList.lookup_erase_ne hg] at hlookup
      exact ⟨g, p, hg, hlookup, hid⟩
  · rintro ⟨g, p, hg, hlookup, hid⟩
    exact ⟨g, p, by rw [AList.lookup_erase_ne hg]; exact hlookup, hid⟩

/-- Every step is one of the six. -/
theorem step_follows (d : Discovery) (input : Outside × ServiceEvent) :
    Follows d (d.step deps input) input.2 := by
  obtain ⟨out, e⟩ := input
  cases e with
  | other => exact .silent (fun _ => nofun) (fun _ => nofun) rfl
  | serviceResolved info =>
      cases hpeer : peerFrom info with
      | none =>
          refine .silent (fun _ => nofun) (fun info' h => ?_) ?_
          · cases h
            exact hpeer
          · simp [step, pumpEvent, liveAfter, hpeer]
      -- the record is ours, or known, or news
      | some peer =>
          by_cases hown : peer.machineId = d.browser.ownId
          · exact .own hpeer hown (by simp [step, pumpEvent, liveAfter, hpeer, hown])
          by_cases hknown : d.browser.fullToPeer.lookup info.fullname = some peer
          · exact .known hpeer hown hknown (by simp [step, pumpEvent, liveAfter, hpeer, hown, hknown])
          · refine .found hpeer hown hknown ?_ ?_ ?_
            · simp [step, liveAfter, hpeer]
            · simp [step, pumpEvent, hpeer, hown, hknown]
            · simp [step, pumpEvent, hpeer, hown, hknown, Node.handleDiscovery, Node.found_peers]
  | serviceRemoved fullName =>
      cases hlookup : d.browser.fullToPeer.lookup fullName with
      | none =>
          exact .unknown hlookup
            (by simp [step, pumpEvent, liveAfter, AList.extract_eq_lookup_erase, hlookup])
      | some peer =>
          -- the machine is lost unless another instance is remembered with its id
          by_cases hshared : d.KnownElsewhere fullName peer.machineId
          · have hknows := (knows_erase_iff d fullName peer.machineId).mpr hshared
            exact .shared hlookup hshared
              (by simp [step, pumpEvent, liveAfter, AList.extract_eq_lookup_erase, hlookup, hknows])
          · have hknows := mt (knows_erase_iff d fullName peer.machineId).mp hshared
            refine .lost hlookup hshared ?_ ?_ ?_
            · simp [step, liveAfter]
            · simp [step, pumpEvent, AList.extract_eq_lookup_erase, hlookup]
            · simp [step, pumpEvent, AList.extract_eq_lookup_erase, hlookup, hknows,
                Node.handleDiscovery, Node.lost_peers]

/-! ## What the browser remembers -/

/-- How the record the browser remembers of an instance is related to its latest one. -/
inductive Tracked (ownId : String) : Option DiscoveredPeer → Option DiscoveredPeer → Prop where
  | absent : Tracked ownId none none
  | foreign {peer : DiscoveredPeer} (h : peer.machineId ≠ ownId) :
      Tracked ownId (some peer) (some peer)
  /-- An instance that now is ours may be remembered from when it was not. -/
  | own {peer : DiscoveredPeer} {remembered : Option DiscoveredPeer} (h : peer.machineId = ownId)
      (hold : ∀ old, remembered = some old → old.machineId ≠ ownId) :
      Tracked ownId (some peer) remembered

/-- No remembered record is our own, as the browser passes over those. -/
theorem Tracked.remembered_ne {ownId : String} {live remembered : Option DiscoveredPeer}
    {peer : DiscoveredPeer} (h : Tracked ownId live remembered) (hr : remembered = some peer) :
    peer.machineId ≠ ownId := by
  cases h with
  | absent => cases hr
  | foreign h =>
      cases hr
      exact h
  | own _ hold => exact hold peer hr

/-- A live record of another machine is the one remembered. -/
theorem Tracked.remembered_eq {ownId : String} {live remembered : Option DiscoveredPeer}
    {peer : DiscoveredPeer} (h : Tracked ownId live remembered) (hlive : live = some peer)
    (hne : peer.machineId ≠ ownId) : remembered = some peer := by
  cases h with
  | absent => cases hlive
  | foreign _ => exact hlive
  | own hown _ =>
      cases hlive
      exact absurd hown hne

/-- The browser follows every instance, by its full name. -/
def Tracks (d : Discovery) : Prop :=
  ∀ f, Tracked d.browser.ownId (d.live f) (d.browser.fullToPeer.lookup f)

variable {d d' : Discovery} {e : ServiceEvent}

/-- A step that is about one instance has to be right about that one only. -/
theorem Tracks.update (h : d.Tracks) (f : String) {live remembered : Option DiscoveredPeer}
    (hown : d'.browser.ownId = d.browser.ownId) (hlive : d'.live = Function.update d.live f live)
    (hlookup : (fun g => d'.browser.fullToPeer.lookup g) =
      Function.update (fun g => d.browser.fullToPeer.lookup g) f remembered)
    (hf : Tracked d.browser.ownId live remembered) : d'.Tracks := by
  intro g
  have hg := congrFun hlookup g
  rw [hown, hlive, hg]
  by_cases hname : g = f
  · rw [hname, Function.update_self, Function.update_self]
    exact hf
  · rw [Function.update_of_ne hname, Function.update_of_ne hname]
    exact h g

/-- Our own id stays what it is. -/
theorem Follows.ownId_eq (h : Follows d d' e) : d'.browser.ownId = d.browser.ownId := by
  cases h with
  | silent _ _ h => rw [h]
  | own _ _ h => rw [h]
  | known _ _ _ h => rw [h]
  | found _ _ _ _ hbrowser _ => rw [hbrowser]
  | unknown _ h => rw [h]
  | shared _ _ h => rw [h]
  | lost _ _ _ hbrowser _ => rw [hbrowser]

/-- **The browser follows**: every step keeps up what it remembers of each instance. -/
theorem Follows.tracks (hstep : Follows d d' e) (h : d.Tracks) : d'.Tracks := by
  cases hstep with
  | silent _ _ heq =>
      rw [heq]
      exact h
  | @own info peer _ hown heq =>
      -- what is remembered stays, and was never ours
      refine h.update info.fullname (by rw [heq]) (by rw [heq])
        (by rw [heq, Function.update_eq_self])
        (.own hown fun old hold => (h info.fullname).remembered_ne hold)
  | @known info peer _ hown hknown heq =>
      refine h.update info.fullname (by rw [heq]) (by rw [heq])
        (by rw [heq, Function.update_eq_self]) ?_
      rw [hknown]
      exact .foreign hown
  | @found info peer _ hown _ hlive hbrowser _ =>
      exact h.update info.fullname (by rw [hbrowser]) hlive
        (by rw [hbrowser]; exact lookup_insert_eq _ _ _) (.foreign hown)
  | @unknown fullName hunknown heq =>
      refine h.update fullName (by rw [heq]) (by rw [heq])
        (by rw [heq, Function.update_eq_self]) ?_
      rw [hunknown]
      exact .absent
  | @shared fullName peer _ _ heq =>
      exact h.update fullName (by rw [heq]) (by rw [heq])
        (by rw [heq]; exact lookup_erase_eq _ _) .absent
  | @lost fullName peer _ _ hlive hbrowser _ =>
      exact h.update fullName (by rw [hbrowser]) hlive
        (by rw [hbrowser]; exact lookup_erase_eq _ _) .absent

/-! ## When the view stays exact -/

/-- The record the supervisor has for this machine is that of a live instance other than this. -/
abbrev Backed (d : Discovery) (fullName machineId : String) : Prop :=
  Roster.Backed d.live d.node.peers fullName machineId

/-- What keeps the view exact over an event. An instance that changes its machine id, to another or
to ours, or goes while the browser remembers another instance of its machine, must not be the only
one that has the record the supervisor shows. One that was ours and comes back with the very record
the browser still has of it must be of a machine that is there. -/
def Keeps (d : Discovery) : ServiceEvent → Prop
  | .serviceResolved info => ∀ peer old, peerFrom info = some peer → d.live info.fullname = some old →
      if old.machineId = d.browser.ownId then
        d.browser.fullToPeer.lookup info.fullname = some peer →
          ∃ g p, d.live g = some p ∧ p.machineId = peer.machineId
      else old.machineId ≠ peer.machineId → d.Backed info.fullname old.machineId
  | .serviceRemoved fullName => ∀ old, d.live fullName = some old →
      old.machineId ≠ d.browser.ownId → d.KnownElsewhere fullName old.machineId →
        d.Backed fullName old.machineId
  | .other => True

/-- A record that is lost from one instance is backed by another exactly if the new record of this
one does not count. -/
theorem backed_iff (h : d.Exact) {f id : String} {new : Option DiscoveredPeer}
    (hnew : ∀ p, new = some p → p.machineId ≠ id) :
    (∃ g p, Function.update d.live f new g = some p ∧ d.node.peers id = some p) ↔ d.Backed f id :=
  ⟨Roster.backed_of_update fun p hp hshown => hnew p hp (h.current id p hshown).1,
    Roster.backed_update⟩

/-- What is asked of an instance that is resolved, by whose its latest record is. -/
theorem keeps_resolved_iff {info : ServiceInfo} {peer : DiscoveredPeer}
    (hpeer : peerFrom info = some peer) : d.Keeps (.serviceResolved info) ↔
      (∀ old, d.live info.fullname = some old → old.machineId = d.browser.ownId →
        d.browser.fullToPeer.lookup info.fullname = some peer →
          ∃ g p, d.live g = some p ∧ p.machineId = peer.machineId) ∧
      ∀ old, d.live info.fullname = some old → old.machineId ≠ d.browser.ownId →
        old.machineId ≠ peer.machineId → d.Backed info.fullname old.machineId := by
  constructor
  · intro hkeeps
    refine ⟨fun old hold hours => ?_, fun old hold hours => ?_⟩
    · have hthere := hkeeps peer old hpeer hold
      rwa [if_pos hours] at hthere
    · have hbacked := hkeeps peer old hpeer hold
      rwa [if_neg hours] at hbacked
  · rintro ⟨hthere, hbacked⟩ p old hp hold
    cases hpeer.symm.trans hp
    by_cases hours : old.machineId = d.browser.ownId
    · rw [if_pos hours]
      exact hthere old hold hours
    · rw [if_neg hours]
      exact hbacked old hold hours

/-- Our own advertisement: the machine the instance was of before must have another one to go by. -/
theorem exact_own_iff (htracks : d.Tracks) (h : d.Exact) {info : ServiceInfo} {peer : DiscoveredPeer}
    (hpeer : peerFrom info = some peer) (hown : peer.machineId = d.browser.ownId) :
    Roster.Exact DiscoveredPeer.machineId d.browser.ownId
        (mapInsert d.live info.fullname peer) d.node.peers ↔ d.Keeps (.serviceResolved info) := by
  rw [mapInsert, Roster.Exact.update_iff h, keeps_resolved_iff hpeer]
  have hne : ∀ old : DiscoveredPeer, old.machineId ≠ d.browser.ownId →
      ∀ p, some peer = some p → p.machineId ≠ old.machineId := by
    intro old hold p hp
    cases hp
    rw [hown]
    exact hold.symm
  constructor
  · rintro ⟨-, hkept⟩
    refine ⟨fun old hold hours hknown => ?_, fun old hold hours _ => ?_⟩
    · exact absurd hown ((htracks info.fullname).remembered_ne hknown)
    · exact (backed_iff h (hne old hours)).mp (hkept old hold hours)
  · rintro ⟨-, hbacked⟩
    refine ⟨fun p hp hours => ?_, fun old hold hours => ?_⟩
    · cases hp
      exact absurd hown hours
    · exact (backed_iff h (hne old hours)).mpr (hbacked old hold hours (hown ▸ hours))

/-- A record that is remembered already: it is the latest one, or from before the instance was ours.
The supervisor hears nothing of it. -/
theorem exact_known_iff (htracks : d.Tracks) (h : d.Exact) {info : ServiceInfo} {peer : DiscoveredPeer}
    (hpeer : peerFrom info = some peer) (hown : peer.machineId ≠ d.browser.ownId)
    (hknown : d.browser.fullToPeer.lookup info.fullname = some peer) :
    Roster.Exact DiscoveredPeer.machineId d.browser.ownId
        (mapInsert d.live info.fullname peer) d.node.peers ↔ d.Keeps (.serviceResolved info) := by
  rw [keeps_resolved_iff hpeer]
  have htracked := htracks info.fullname
  rw [hknown] at htracked
  generalize hlive : d.live info.fullname = latest at htracked
  cases htracked with
  | foreign hforeign =>
      -- the same record once more
      refine iff_of_true ?_ ⟨fun old hold hours => ?_, fun old hold _ hne => ?_⟩
      · rw [mapInsert, Function.update_eq_self_iff.mpr hlive.symm]
        exact h
      · cases hold
        exact absurd hours hforeign
      · cases hold
        exact absurd rfl hne
  | @own old _ hours _ =>
      rw [mapInsert, Roster.Exact.update_iff h]
      constructor
      · intro hshown
        refine ⟨fun _ _ _ _ => ((h.names _).mp (hshown.1 peer rfl hown)).2, fun q hq hne => ?_⟩
        cases hq
        exact absurd hours hne
      · rintro ⟨hthere, -⟩
        refine ⟨fun p hp hne => ?_, fun q hq hne => ?_⟩
        · cases hp
          exact (h.names _).mpr ⟨hne, hthere old rfl hours hknown⟩
        · rw [hlive] at hq
          cases hq
          exact absurd hours hne

/-- An instance that is not remembered goes: if there was one it was ours, and the view stays exact.
-/
theorem exact_unknown_iff (htracks : d.Tracks) (h : d.Exact) {fullName : String}
    (hunknown : d.browser.fullToPeer.lookup fullName = none) :
    Roster.Exact DiscoveredPeer.machineId d.browser.ownId
        (mapRemove d.live fullName) d.node.peers ↔ d.Keeps (.serviceRemoved fullName) := by
  have htracked := htracks fullName
  rw [hunknown] at htracked
  -- an instance that is not remembered was ours, if it was there at all
  have hours : ∀ old, d.live fullName = some old → ¬ old.machineId ≠ d.browser.ownId :=
    fun old hold hne => nomatch htracked.remembered_eq hold hne
  rw [mapRemove]
  refine iff_of_true ((Roster.Exact.update_iff h).mpr ⟨fun p hp => (by cases hp), ?_⟩) ?_
  · exact fun old hold hne => absurd hne (hours old hold)
  · exact fun old hold hne => absurd hne (hours old hold)

/-- One goes whose machine id another instance is remembered with. -/
theorem exact_shared_iff (htracks : d.Tracks) (h : d.Exact) {fullName : String} {peer : DiscoveredPeer}
    (hknown : d.browser.fullToPeer.lookup fullName = some peer)
    (hshared : d.KnownElsewhere fullName peer.machineId) :
    Roster.Exact DiscoveredPeer.machineId d.browser.ownId
        (mapRemove d.live fullName) d.node.peers ↔ d.Keeps (.serviceRemoved fullName) := by
  rw [mapRemove, Roster.Exact.update_iff h]
  constructor
  · intro hkept old hold hne _
    exact (backed_iff h fun p hp => by cases hp).mp (hkept.2 old hold hne)
  · refine fun hkeeps => ⟨fun p hp => (by cases hp), fun old hold hne =>
      (backed_iff h fun p hp => (by cases hp)).mpr ?_⟩
    have hsame := (htracks fullName).remembered_eq hold hne
    rw [hknown] at hsame
    cases hsame
    exact hkeeps _ hold hne hshared

/-- The last one of a machine goes, and the machine with it: the view stays exact. -/
theorem exact_lost_iff (htracks : d.Tracks) (h : d.Exact) {fullName : String} {peer : DiscoveredPeer}
    (hknown : d.browser.fullToPeer.lookup fullName = some peer)
    (hlast : ¬ d.KnownElsewhere fullName peer.machineId) :
    Roster.Exact DiscoveredPeer.machineId d.browser.ownId
        (mapRemove d.live fullName) (mapRemove d.node.peers peer.machineId) ↔
      d.Keeps (.serviceRemoved fullName) := by
  have hold : ∀ old, d.live fullName = some old →
      old = peer ∨ old.machineId = d.browser.ownId := by
    intro old hlive
    by_cases hne : old.machineId = d.browser.ownId
    · exact Or.inr hne
    · have hsame := (htracks fullName).remembered_eq hlive hne
      rw [hknown] at hsame
      cases hsame
      exact Or.inl rfl
  refine iff_of_true (Roster.Exact.drop h ?_ ?_) ?_
  · rintro g p hg hp hid
    have hne : p.machineId ≠ d.browser.ownId := by
      rw [hid]
      exact (htracks fullName).remembered_ne hknown
    exact hlast ⟨g, p, hg, (htracks g).remembered_eq hp hne, hid⟩
  · intro old hlive
    obtain rfl | hours := hold old hlive
    · exact Or.inl rfl
    · exact Or.inr hours
  · intro old hlive hne helse
    obtain rfl | hours := hold old hlive
    · exact absurd helse hlast
    · exact absurd hours hne

/-- **A step keeps the view exact** exactly if it is one that does no harm. -/
theorem Follows.exact_iff (hstep : Follows d d' e) (htracks : d.Tracks) (h : d.Exact) :
    d'.Exact ↔ d.Keeps e := by
  unfold Exact
  rw [hstep.ownId_eq]
  cases hstep with
  -- an event that says nothing changes nothing
  | silent hevent hinfo heq =>
      refine iff_of_true (by rw [heq]; exact h) ?_
      cases e with
      | other => trivial
      | serviceRemoved f => exact absurd rfl (hevent f)
      | serviceResolved info =>
          intro peer old hpeer
          rw [hinfo info rfl] at hpeer
          cases hpeer
  | own hpeer hown heq =>
      rw [heq]
      exact exact_own_iff htracks h hpeer hown
  | known hpeer hown hknown heq =>
      rw [heq]
      exact exact_known_iff htracks h hpeer hown hknown
  | @found info peer hpeer hown hnew hlive _ hpeers =>
      rw [hlive, hpeers, Roster.Exact.put_iff h hown, keeps_resolved_iff hpeer]
      exact ⟨fun hkept => ⟨fun _ _ _ hknown => absurd hknown hnew, hkept⟩, And.right⟩
  | unknown hunknown heq =>
      rw [heq]
      exact exact_unknown_iff htracks h hunknown
  | shared hknown hshared heq =>
      rw [heq]
      exact exact_shared_iff htracks h hknown hshared
  | lost hknown hlast hlive _ hpeers =>
      rw [hlive, hpeers]
      exact exact_lost_iff htracks h hknown hlast

/-! ## Runs -/

section Runs

variable (deps : SyncDeps) (ownId : String) (s : Supervisor) (trust : TrustedPeerStore)
  (inputs : List (Outside × ServiceEvent))

/-- The state after the first events of a run. -/
abbrev after (n : ℕ) : Discovery :=
  Run.after (step deps) (start ownId s trust) inputs n

/-- **The supervisor's view of the network, exactly.** It is exact after every event of a run if and
only if every event keeps it so. -/
theorem view_exact_iff :
    (∀ n, (after deps ownId s trust inputs n).Exact) ↔
      ∀ n input, inputs[n]? = some input → (after deps ownId s trust inputs n).Keeps input.2 := by
  have hstart : (start ownId s trust).Tracks := fun _ => .absent
  have htracks : ∀ n, (after deps ownId s trust inputs n).Tracks :=
    Run.invariant hstart fun n input _ h => (step_follows _ input).tracks h
  have hexact : ∀ (d : Discovery) (input : Outside × ServiceEvent), d.Tracks ∧ d.Exact →
      ((d.step deps input).Tracks ∧ (d.step deps input).Exact ↔ d.Keeps input.2) := by
    intro d input h
    rw [and_iff_right ((step_follows d input).tracks h.1)]
    exact (step_follows d input).exact_iff h.1 h.2
  rw [← Run.forall_iff ⟨hstart, Roster.Exact.empty⟩ hexact]
  exact forall_congr' fun n => (and_iff_right (htracks n)).symm

end Runs

/-- An instance as it resolves, advertising this machine id. -/
def sampleInfo (machineId : String) : ServiceInfo where
  fullname := "desk._synbad._tcp.local."
  hostname := "desk.local."
  port := 24802
  addresses := [.v4 0xc0a80002#32]
  property := fun key => if key = "id" then some machineId else if key = "fp" then some "f" else none

/-- An instance that comes back with another machine id leaves the old one in the map for good. -/
theorem renamed_peer_stays :
    ¬ ∀ (deps : SyncDeps) (ownId : String) (s : Supervisor) (trust : TrustedPeerStore)
      (inputs : List (Outside × ServiceEvent)) (n : ℕ), (after deps ownId s trust inputs n).Exact := by
  intro h
  let inputs := [(Node.sampleOutside, ServiceEvent.serviceResolved (sampleInfo "b")),
    (Node.sampleOutside, ServiceEvent.serviceResolved (sampleInfo "c"))]
  let d := after (Node.sampleDeps (.initial Config.default "a")) "a" Node.sampleSupervisor
    Node.sampleTrust inputs 2
  have hshown : (d.node.peers "b").isSome = true := by decide +kernel
  have hlive : d.live "desk._synbad._tcp.local." = peerFrom (sampleInfo "c") := by decide +kernel
  have hc : (peerFrom (sampleInfo "c")).map DiscoveredPeer.machineId = some "c" := by decide +kernel
  obtain ⟨-, f, p, hp, hid⟩ := ((h _ _ _ _ inputs 2).names "b").mp hshown
  by_cases hf : f = "desk._synbad._tcp.local."
  · rw [hf, hlive] at hp
    rw [hp, Option.map_some, hid] at hc
    revert hc
    decide
  · -- no other instance has ever been resolved
    have hnone : d.live f = none := by
      show ((start _ _ _).step _ _ |>.step _ _).live f = none
      rw [step_live, step_live]
      have hpeer : ∀ id, ∃ p, peerFrom (sampleInfo id) = some p := fun _ => ⟨_, rfl⟩
      obtain ⟨old, hold⟩ := hpeer "b"
      obtain ⟨new, hnew⟩ := hpeer "c"
      simp only [liveAfter, hold, hnew]
      exact (Function.update_of_ne hf _ _).trans (Function.update_of_ne hf _ _)
    exact nomatch hnone.symm.trans hp

end Discovery

end Synbad
