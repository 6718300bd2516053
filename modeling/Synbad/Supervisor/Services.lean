import Synbad.Audio.Dial
import Synbad.Discovery.Advertiser
import Synbad.Sync.Node
import Mathlib.Data.Finset.Basic

/-! # The network services of the supervisor

The part of `supervisor/mod.rs` and `requests.rs` that keeps the discovery, the three listeners and
the audio subsystem up: bringing the bridge up and tearing it down, the dials to the peers that should
have a session, what the bridge and the dials report, and the tick that mends what has failed. Dials,
accepted connections, the bridge and the drivers of its sessions are tasks of their own, so their
steps come in any order between those of the loop.

Bridges are numbered, and whoever was given the handle of a bridge keeps its number, so that a message
to a bridge that has been replaced is told from one to its successor. Channels are lists with a
capacity: a command or a status that finds its channel full is dropped, an outcome or an error waits.
What a bridge does in one iteration is in `Audio.Bridge`; here its log is turned into the events that
the loop will hear.

The tick goes through the services in the order of the source, each in two parts, one that drops what
has ended or is no longer as configured and one that starts what is missing. The module is a
translation; the invariants of the subsystem are in the modules whose names begin with `Audio`, and
those of the listeners in `Supervisor.Listeners`. -/

namespace Synbad

open Audio

/-! ## State -/

/-- A listener task: what its sessions are given, the port it is bound to, and whether it has ended. -/
structure ListenerTask (α : Type) where
  deps : α
  port : ℕ
  finished : Bool

/-- The task of a bridge and its two channels, oldest message first. What the loop still waits to hand
over counts among the events. -/
structure BridgeTask where
  number : ℕ
  bridge : AudioBridge
  commands : List AudioCommand
  events : List AudioEvent

/-- The events this part of the supervisor broadcasts, about peers, trust and audio. -/
inductive ServicesEvent where
  | peerDiscovered (peer : DiscoveredPeer)
  | peerLost (machineId : String)
  | trustRevoked (machineId : String)
  | audioPeerStatus (status : PeerAudioStatus)
  | audioPeerRemoved (machineId : String)
  | audioError (peer : Option String) (message : String)

/-- The supervisor as far as its network services go. Maps from machine ids are functions. -/
structure Services where
  /-- The library that reads the keys of the trust store. -/
  hex : HexCodec
  machineId : String
  fingerprint : String
  config : Config
  headHash : String
  desiredRunning : Bool
  trust : TrustedPeerStore
  peers : String → Option DiscoveredPeer
  events : List ServicesEvent
  advertiser : Option Advertiser
  browser : Bool
  /-- The receiver of the browser, and whether its sender is gone. -/
  discoveryRx : Option Bool
  /-- The name the pairing sessions to come will show. -/
  pairingDeps : String
  pairingListener : Option (ListenerTask String)
  incomingPairings : Bool
  syncListener : Option (ListenerTask Unit)
  listenerPorts : ℕ × ℕ × ℕ
  /-- The handle of the bridge, by the bridge's number. -/
  audio : Option ℕ
  audioTask : Option ℕ
  audioListener : Option (ListenerTask ℕ)
  audioDialDeps : Option ℕ
  audioTasks : List Dial
  audioInflight : Finset String
  audioLive : Finset String
  audioBackoff : String → Option AudioBackoff
  /-- The channel of outcomes, oldest first, which the dials report to. -/
  audioDialDone : List AudioDialOutcome
  /-- The connections the audio listener has accepted, as long as they are not joined. -/
  signals : List SignalStage
  bridge : Option BridgeTask
  /-- How many bridges have been spawned; a new one takes this number. -/
  bridges : ℕ
  /-- The loop has returned, and takes no further step. -/
  halted : Bool

/-- What the outside decides while the network takes a step. -/
structure ServicesEnv where
  now : ℕ
  /-- The order in which the peers are gone through. -/
  order : List String
  /-- `try_lock` on the trust store fails when this peer is looked at. -/
  trustBusy : String → Bool
  macos : Bool
  /-- The error of binding the pairing listener, if any. -/
  bindPairing : Option String
  bindSync : Option String
  /-- The error of binding the audio listener as the bridge comes up, and later in a tick. -/
  bindAudio : Option String
  bindAudioAgain : Option String
  browserStart : Option String
  /-- What mDNS answers to the start of an advertiser, to `set_audio_port` as audio comes up and as it
  goes down, and to the refresh of a tick. -/
  mdnsStart : MdnsAnswers
  mdnsUp : MdnsAnswers
  mdnsDown : MdnsAnswers
  mdnsRefresh : MdnsAnswers

namespace Services

/-- The capacity of the bridge's channel of commands; a command that finds it full is dropped. -/
def commandsCapacity : ℕ := 64

/-- The capacity of the bridge's channel of events; a status that finds it full is dropped. -/
def eventsCapacity : ℕ := 256

/-- The capacity of the channel of outcomes; a dial that finds it full waits. -/
def dialDoneCapacity : ℕ := 16

/-- How many accepted connections the audio listener serves at once. -/
def signalSlots : ℕ := 64

/-- Broadcast an event, behind those there have been. -/
def emit (n : Services) (e : ServicesEvent) : Services := { n with events := n.events ++ [e] }

/-- `commands_tx.try_send`, on the handle of the bridge: nothing without a handle, or when the queue
is full. -/
def trySend (n : Services) (c : AudioCommand) : Services :=
  match n.audio, n.bridge with
  | some _, some t =>
      if t.bridge.exited = false ∧ t.commands.length < commandsCapacity then
        { n with bridge := some { t with commands := t.commands ++ [c] } }
      else n
  | _, _ => n

/-- `Advertiser::set_audio_port`, if there is an advertiser, whatever becomes of it. -/
def setAudioPort (n : Services) (macos : Bool) (answers : MdnsAnswers) (port : ℕ) : Services :=
  { n with
    advertiser := n.advertiser.map fun a =>
      (Advertiser.setAudioPort macos answers a (UInt16.ofNat port)).1 }

/-! ## Dialing -/

/-- `gc_audio_tasks`: the dials that are over go. -/
def gcAudioTasks (n : Services) : Services :=
  { n with audioTasks := n.audioTasks.filter fun d => !d.stage.isFinished }

/-- `dial_audio_one`: a peer that passes every check is dialled and counts as in flight; the checks in
the order of the source. -/
def dialAudioOne (env : ServicesEnv) (n : Services) (peer : DiscoveredPeer) : Services :=
  match n.audioDialDeps with
  | none => n
  | some bridge =>
      if peer.audioPort = 0 then n
      else if !peerAudioActive n.config.audio peer.machineId then n
      -- the machine with the smaller id dials
      else if peer.machineId ≤ n.machineId then n
      else if peer.machineId ∈ n.audioLive then n
      else if peer.machineId ∈ n.audioInflight then n
      else if (n.audioBackoff peer.machineId).any fun b => env.now < b.nextAttempt then n
      else if env.trustBusy peer.machineId then n
      else if n.trust.contains peer.machineId then
        gcAudioTasks
          { n with
            audioInflight := insert peer.machineId n.audioInflight
            audioTasks := n.audioTasks ++ [⟨peer, bridge, .spawned⟩] }
      else n

/-- `reconcile_audio_sessions`: every peer that is seen is gone through, in some order. -/
def reconcileAudioSessions (env : ServicesEnv) (n : Services) : Services :=
  if n.audioDialDeps.isNone then n
  else (env.order.filterMap n.peers).foldl (dialAudioOne env) n

/-- `AudioBackoff::after_failure`, entered for a peer, with one attempt more. -/
def backOff (env : ServicesEnv) (n : Services) (peer : String) : Services :=
  { n with
    audioBackoff :=
      mapInsert n.audioBackoff peer (AudioBackoff.afterFailure env.now (n.audioBackoff peer)) }

/-- `handle_audio_dial_outcome`: the peer is no longer in flight, and a failure backs it off. -/
def handleAudioDialOutcome (env : ServicesEnv) (n : Services) : AudioDialOutcome → Services
  | .ok peerMachineId =>
      { n with
        audioInflight := n.audioInflight.erase peerMachineId
        audioBackoff := mapRemove n.audioBackoff peerMachineId }
  | .err peerMachineId _ =>
      { n with audioInflight := n.audioInflight.erase peerMachineId }.backOff env peerMachineId

/-! ## Up and down -/

/-- `AudioBridge::new` and its spawn, with the configuration and trust of the moment. -/
def spawnBridge (n : Services) : BridgeTask where
  number := n.bridges
  bridge := .new n.config.audio n.trust
  commands := []
  events := []

/-- The listener of a bring-up, if its port can be bound. -/
def bringUpListener (env : ServicesEnv) (n : Services) : Option (ListenerTask ℕ) :=
  match env.bindAudio with
  | none => some ⟨n.bridges, n.config.audio.signalPort, false⟩
  | some _ => none

/-- The fields a bring-up sets, all to the same new bridge. -/
def bringUp (n : Services) (listener : Option (ListenerTask ℕ)) : Services :=
  { n with
    audio := some n.bridges
    audioTask := some n.bridges
    audioListener := listener
    audioDialDeps := some n.bridges
    signals := []
    bridge := some n.spawnBridge
    bridges := n.bridges + 1 }

/-- `ensure_audio_subsystem`, which always succeeds: a listener that does not bind is done without. -/
def ensureAudioSubsystem (env : ServicesEnv) (n : Services) : Services :=
  if n.audio.isSome then n
  else if !n.config.audio.enabled then n
  else
    let listener := n.bringUpListener env
    let up := n.bringUp listener
    let advertised :=
      if listener.isSome then up.setAudioPort env.macos env.mdnsUp n.config.audio.signalPort else up
    advertised.reconcileAudioSessions env

/-- `teardown_audio_subsystem`. The dials and the listener are aborted and waited for; the bridge is
told to shut down and, should it take longer than half a second, aborted. Either way its sessions are
dropped with it. -/
def teardownAudioSubsystem (env : ServicesEnv) (n : Services) : Services :=
  { n with
    audioTasks := []
    audioListener := none
    signals := []
    audio := none
    audioTask := none
    bridge := none
    audioDialDone := []
    audioDialDeps := none
    audioLive := ∅
    audioInflight := ∅
    audioBackoff := fun _ => none }.setAudioPort env.macos env.mdnsDown 0

/-- `reconcile_audio_subsystem`: bring it up if Synbad is to run with audio, and tear it down
otherwise. -/
def reconcileAudioSubsystem (env : ServicesEnv) (n : Services) : Services :=
  if !(n.desiredRunning && n.config.audio.enabled) then
    if n.audio.isSome then n.teardownAudioSubsystem env else n
  else n.ensureAudioSubsystem env

/-! ## Reports -/

/-- `handle_audio_event`: what an event of the bridge changes in who counts as live, in flight and
backed off, and what is broadcast. -/
def handleAudioEvent (env : ServicesEnv) (n : Services) : AudioEvent → Services
  | .peerStatus status =>
      (if status.lastError.isSome then
          { n with audioLive := n.audioLive.erase status.machineId }
        else
          { n with
            audioLive := insert status.machineId n.audioLive
            audioBackoff := mapRemove n.audioBackoff status.machineId }).emit (.audioPeerStatus status)
  | .error peer message =>
      (match peer with
        | some id =>
            { n with
              audioLive := n.audioLive.erase id
              audioInflight := n.audioInflight.erase id }.backOff env id
        | none => n).emit (.audioError peer message)
  | .sessionClosed peer =>
      { n with audioLive := n.audioLive.erase peer }.emit (.audioPeerRemoved peer)

/-- The `audio_dial_done_rx` branch of the loop, for the oldest outcome. -/
def takeDialDone (env : ServicesEnv) (n : Services) : Services :=
  match n.audioDialDone with
  | [] => n
  | outcome :: rest => { n with audioDialDone := rest }.handleAudioDialOutcome env outcome

/-- The `audio_event` branch of the loop, for the oldest event, as long as the handle is there. -/
def takeAudioEvent (env : ServicesEnv) (n : Services) : Services :=
  match n.audio, n.bridge with
  | some _, some t =>
      match t.events with
      | [] => n
      | e :: rest => { n with bridge := some { t with events := rest } }.handleAudioEvent env e
  | _, _ => n

/-! ## Discovery -/

/-- `handle_discovery`, a peer found; the sync side of it is the node's. -/
def found (env : ServicesEnv) (n : Services) (peer : DiscoveredPeer) : Services :=
  let same := (n.peers peer.machineId).any fun p => Node.unchanged p peer
  let n := { n with peers := mapInsert n.peers peer.machineId peer }
  if same then n else (n.emit (.peerDiscovered peer)).reconcileAudioSessions env

/-- `handle_discovery`, a peer lost: what is kept about it goes, and its session is closed. -/
def lost (n : Services) (machineId : String) : Services :=
  match n.peers machineId with
  | none => n
  | some _ =>
      ({ n with
          peers := mapRemove n.peers machineId
          audioLive := n.audioLive.erase machineId
          audioBackoff := mapRemove n.audioBackoff machineId }.emit (.peerLost machineId)).trySend
        (.closePeer machineId)

/-- `char::is_control`: the characters of the category `Cc`. -/
def isControl (c : Char) : Bool := c.toNat < 0x20 || (0x7f ≤ c.toNat && c.toNat ≤ 0x9f)

/-- `sanitize_display_name`: without control characters and dots, and never blank. -/
def sanitizeDisplayName (name : String) : String :=
  let s := name.toList.filter fun c => !isControl c && c != '.'
  if s.all LogParse.isWhitespace then "synbad" else String.ofList s

/-- `start_discovery`: an advertiser whose browser does not start is dropped again. -/
def startDiscovery (env : ServicesEnv) (n : Services) : Services :=
  match Advertiser.start env.macos env.mdnsStart n.machineId n.fingerprint
      (sanitizeDisplayName n.config.serverName) (UInt16.ofNat n.config.servicePort)
      (UInt16.ofNat n.config.syncPort) (UInt16.ofNat n.config.port) 0 n.headHash with
  | .error _ => n
  | .ok a =>
      match env.browserStart with
      | some _ => n
      | none => { n with advertiser := some a, browser := true, discoveryRx := some false }

/-! ## The tick -/

/-- A listener task has ended by itself, if there is one. -/
def hasEnded {α : Type} (l : Option (ListenerTask α)) : Bool := l.any fun t => t.finished

/-- The first part of `reconcile_network_services`: a renamed machine replaces its pairing
listener. -/
def reconcileName (n : Services) : Services :=
  if n.pairingDeps ≠ n.config.serverName then
    { n with pairingDeps := n.config.serverName, pairingListener := none }
  else n

/-- A browser whose thread is gone is dropped, advertiser and all. -/
def retireBrowser (n : Services) : Services :=
  if n.discoveryRx = some true then
    { n with discoveryRx := none, browser := false, advertiser := none }
  else n

/-- Without a browser, discovery is started anew; with one, nothing is done. -/
def reopenDiscovery (env : ServicesEnv) (n : Services) : Services :=
  if n.browser then n else n.startDiscovery env

/-- The pairing listener is dropped when its port has changed or it has ended. -/
def retirePairing (n : Services) : Services :=
  if n.listenerPorts.1 ≠ n.config.servicePort ∨ hasEnded n.pairingListener = true then
    { n with pairingListener := none, incomingPairings := false }
  else n

/-- Without a pairing listener, one is bound, and its port is written down if that worked. -/
def reopenPairing (env : ServicesEnv) (n : Services) : Services :=
  if n.pairingListener.isSome then n
  else
    match env.bindPairing with
    | some _ => n
    | none =>
        { n with
          pairingListener := some ⟨n.pairingDeps, n.config.servicePort, false⟩
          incomingPairings := true
          listenerPorts := (n.config.servicePort, n.listenerPorts.2) }

/-- The sync listener is dropped when its port has changed or it has ended. -/
def retireSync (n : Services) : Services :=
  if n.listenerPorts.2.1 ≠ n.config.syncPort ∨ hasEnded n.syncListener = true then
    { n with syncListener := none }
  else n

/-- Without a sync listener, one is bound, and its port is written down if that worked. -/
def reopenSync (env : ServicesEnv) (n : Services) : Services :=
  if n.syncListener.isSome then n
  else
    match env.bindSync with
    | some _ => n
    | none =>
        { n with
          syncListener := some ⟨(), n.config.syncPort, false⟩
          listenerPorts := (n.listenerPorts.1, n.config.syncPort, n.listenerPorts.2.2) }

/-- The bridge's task has ended while the supervisor still holds it. -/
def bridgeEnded (n : Services) : Bool := n.audioTask.isSome && n.bridge.any fun t => t.bridge.exited

/-- The audio subsystem is torn down when its port has changed or its bridge has ended. -/
def retireAudio (env : ServicesEnv) (n : Services) : Services :=
  if n.listenerPorts.2.2 ≠ n.config.audio.signalPort ∨ n.bridgeEnded = true then
    n.teardownAudioSubsystem env
  else n

/-- It is brought to where it should be, and the bridge told the configuration once more, should an
edit have hit a full queue. -/
def reopenAudio (env : ServicesEnv) (n : Services) : Services :=
  let n := (n.reconcileAudioSubsystem env).trySend (.reconfigure n.config.audio)
  { n with listenerPorts := (n.listenerPorts.1, n.listenerPorts.2.1, n.config.audio.signalPort) }

/-- The audio listener is dropped when it has ended. -/
def retireAudioListener (n : Services) : Services :=
  if hasEnded n.audioListener then { n with audioListener := none, signals := [] } else n

/-- Without an audio listener, one is bound if the subsystem is up. -/
def reopenAudioListener (env : ServicesEnv) (n : Services) : Services :=
  if n.audioListener.isSome then n
  else
    match n.audioDialDeps, env.bindAudioAgain with
    | some bridge, none =>
        { n with
          audioListener := some ⟨bridge, n.config.audio.signalPort, false⟩
          signals := [] }
    | _, _ => n

/-- The refresh of the advertisement, with the ports as they are configured and the head as it is. -/
def readvertise (env : ServicesEnv) (n : Services) : Services :=
  let audioPort := if n.audioListener.isSome then n.config.audio.signalPort else 0
  { n with
    advertiser := n.advertiser.map fun a =>
      (Advertiser.refresh env.macos env.mdnsRefresh a (UInt16.ofNat n.config.servicePort)
        (UInt16.ofNat n.config.syncPort) (UInt16.ofNat n.config.port) (UInt16.ofNat audioPort)
        n.headHash).1 }

/-- `reconcile_network_services`: its parts, in the order of the source. -/
def reconcileNetworkServices (env : ServicesEnv) (n : Services) : Services :=
  let n := n.reconcileName
  let n := n.retireBrowser.reopenDiscovery env
  let n := n.retirePairing.reopenPairing env
  let n := n.retireSync.reopenSync env
  let n := (n.retireAudio env).reopenAudio env
  let n := n.retireAudioListener.reopenAudioListener env
  n.readvertise env

/-- The `audio_reconcile` branch of the loop, as far as it is about the network. -/
def tick (env : ServicesEnv) (n : Services) : Services :=
  (n.reconcileNetworkServices env).gcAudioTasks.reconcileAudioSessions env

/-! ## Requests -/

/-- `Request::Start`; a `Request::Restart` does the same to the network. -/
def start (env : ServicesEnv) (n : Services) : Services :=
  { n with desiredRunning := true }.reconcileAudioSubsystem env

/-- `Request::Stop`, as far as the network goes. -/
def stop (env : ServicesEnv) (n : Services) : Services :=
  { n with desiredRunning := false }.reconcileAudioSubsystem env

/-- The peers a new configuration takes audio from, though the old one gave it to them. -/
def demoted (old new : AudioConfig) (peer : String) : Bool :=
  peerAudioActive old peer && !peerAudioActive new peer

/-- `update_audio_config`, once the document has been set to one with this audio section. -/
def updateAudioConfig (env : ServicesEnv) (n : Services) (config : Config) (headHash : String) :
    Services :=
  let old := n.config.audio
  let new := config.audio
  let n := { n with config := config, headHash := headHash }
  let n := if old.enabled ≠ new.enabled then n.reconcileAudioSubsystem env else n
  let n := n.trySend (.reconfigure new)
  let n :=
    if old.enabled ∧ new.enabled then
      { n with
        audioLive := n.audioLive.filter fun p => ¬((n.peers p).isSome ∧ demoted old new p = true)
        audioBackoff := fun p =>
          if (n.peers p).isSome ∧ demoted old new p = true then none else n.audioBackoff p }
    else n
  n.reconcileAudioSessions env

/-- The `RevokeTrust` arm of `handle_request`: the entry goes, and if it was there the peer's session
is closed. -/
def revokeTrust (n : Services) (machineId : String) (fails : Option SaveFault) : Services :=
  let removed := n.trust.remove machineId fails
  let n := { n with trust := removed.1 }
  match removed.2 with
  | .ok true => (n.emit (.trustRevoked machineId)).trySend (.closePeer machineId)
  | _ => n

/-! ## Other tasks -/

/-- A dial takes a step: its stream goes to the bridge, its outcome to the loop, and any other move is
its own. -/
def stepDial (n : Services) (i : ℕ) (move : DialMove) : Services :=
  match n.audioTasks[i]? with
  | none => n
  | some d =>
      match move, d.stage with
      | .handOff opening, .handingOff trusted =>
          match n.bridge with
          | none => { n with audioTasks := n.audioTasks.set i (d.failed .bridgeGone) }
          | some t =>
              if t.bridge.exited ∨ t.number ≠ d.bridge then
                { n with audioTasks := n.audioTasks.set i (d.failed .bridgeGone) }
              else if t.commands.length < commandsCapacity then
                { n with
                  bridge := some
                    { t with commands := t.commands ++ [.incomingSignal trusted.machineId opening] }
                  audioTasks := n.audioTasks.set i
                    { d with stage := .reporting (.ok d.peer.machineId) } }
              else n
      | .report, .reporting outcome =>
          if n.audioDialDone.length < dialDoneCapacity then
            { n with
              audioDialDone := n.audioDialDone ++ [outcome]
              audioTasks := n.audioTasks.set i { d with stage := .finished } }
          else n
      | move, _ => { n with audioTasks := n.audioTasks.set i (d.advance n.hex n.trust move) }

/-- A connection that is still being served. -/
def SignalStage.isOpen : SignalStage → Bool
  | .finished _ => false
  | _ => true

/-- The audio listener accepts a connection, if a slot is free; those that have ended are joined. -/
def accept (n : Services) : Services :=
  if hasEnded n.audioListener ∨ n.audioListener.isNone then n
  else
    let serving := n.signals.filter SignalStage.isOpen
    if serving.length < signalSlots then { n with signals := serving ++ [.accepted] } else n

/-- An accepted connection takes a step: its stream goes to the bridge, and any other move is its
own. -/
def stepSignal (n : Services) (i : ℕ) (move : SignalMove) : Services :=
  match n.signals[i]? with
  | none => n
  | some s =>
      match move, s with
      | .handOff opening, .handingOff peerMachineId =>
          match n.bridge with
          | none => { n with signals := n.signals.set i (.finished (.error .bridgeGone)) }
          | some t =>
              if t.bridge.exited then
                { n with signals := n.signals.set i (.finished (.error .bridgeGone)) }
              else if t.commands.length < commandsCapacity then
                { n with
                  bridge := some
                    { t with commands := t.commands ++ [.incomingSignal peerMachineId opening] }
                  signals := n.signals.set i (.finished (.ok ())) }
              else n
      | move, s => { n with signals := n.signals.set i (s.advance n.hex n.trust move) }

/-- The event an entry of the bridge's log is about. -/
def eventOf : Entry → Option AudioEvent
  | .sent e => some e
  | .inserted _ _ => none

/-- The events among the entries a bridge has logged since. -/
def newEvents (before after : AudioBridge) : List AudioEvent :=
  (after.log.drop before.log.length).filterMap eventOf

/-- The bridge runs its loop once: a reap tick, or the oldest command. -/
def stepBridge (n : Services) (reap : Bool) : Services :=
  match n.bridge with
  | none => n
  | some t =>
      let b := t.bridge.outside (.trustChanges n.trust)
      match reap, t.commands with
      | true, commands =>
          let b' := b.iterate .tick
          { n with bridge := some ⟨t.number, b', commands, t.events ++ newEvents b b'⟩ }
      | false, c :: commands =>
          let b' := b.iterate (.command (some c))
          { n with bridge := some ⟨t.number, b', commands, t.events ++ newEvents b b'⟩ }
      | false, [] => n

/-- What the driver of a session does to its status. -/
inductive DriverReport where
  | status (sendingToPeer receivingFromPeer : Bool) (lastError : Option String)
  /-- `driver_task` ends, with an error or not, and says so. -/
  | ended (error : Option String)

/-- The status that a report leaves behind in the session. -/
def DriverReport.leaves (s : PeerAudioStatus) : DriverReport → PeerAudioStatus
  | .status sending receiving lastError =>
      { s with sendingToPeer := sending, receivingFromPeer := receiving, lastError := lastError }
  | .ended error =>
      { s with
        sendingToPeer := false
        receivingFromPeer := false
        lastError := some (error.getD "session closed") }

/-- The driver is over with this report. -/
def DriverReport.ends : DriverReport → Bool
  | .status .. => false
  | .ended _ => true

/-- What it sends: its status, if that is new and there is room for it, and its error. -/
def DriverReport.told (peer : String) (s : PeerAudioStatus) (room : Bool) :
    DriverReport → List AudioEvent
  | .status sending receiving lastError =>
      let status := (DriverReport.status sending receiving lastError).leaves s
      if status ≠ s ∧ room = true then [.peerStatus status] else []
  | .ended (some message) => [.error (some peer) message]
  | .ended none => []

/-- The driver of a session reports. Its status events are dropped when the channel is full, its error
is not. -/
def stepDriver (n : Services) (peer : String) (report : DriverReport) : Services :=
  match n.bridge with
  | none => n
  | some t =>
      match t.bridge.session peer with
      | none => n
      | some s =>
          if s.finished then n
          else
            { n with
              bridge := some
                { t with
                  bridge := t.bridge.outside
                    (.driverUpdates peer (report.leaves s.status) report.ends)
                  events := t.events ++
                    report.told peer s.status (t.events.length < eventsCapacity) } }

end Services

/-! ## Steps -/

/-- What can happen to the network, in any order. -/
inductive ServicesInput where
  | start
  | stop
  /-- `SetAudioConfig`, with the document it leads to when it is valid and saved. -/
  | setAudioConfig (config : Config) (headHash : String)
  /-- The document changes in another way: a `SetConfig`, a file reload or a merge. -/
  | configChanged (config : Config) (headHash : String)
  | revokeTrust (machineId : String) (fails : Option SaveFault)
  | pair (peer : TrustedPeer) (fails : Option SaveFault)
  | found (peer : DiscoveredPeer)
  | lost (machineId : String)
  | tick
  | dialDone
  | audioEvent
  | dial (i : ℕ) (move : DialMove)
  | accept
  | signal (i : ℕ) (move : SignalMove)
  | bridge (reap : Bool)
  | driver (peer : String) (report : Services.DriverReport)
  /-- A listener task ends by itself, as when accepting fails for good. -/
  | pairingEnds
  | syncEnds
  | audioEnds
  /-- The bridge's task dies, with its sessions. -/
  | bridgeDies
  /-- The browser's thread is gone, without being asked to go. -/
  | browserEnds
  /-- The loop returns, and the network is torn down with it. -/
  | shutdown

namespace Services

/-- A listener task ends, if there is one; the supervisor still holds it. -/
def endListener {α : Type} (l : Option (ListenerTask α)) : Option (ListenerTask α) :=
  l.map fun t => { t with finished := true }

/-- One step of a network whose loop runs, by what happens. -/
def stepRunning (env : ServicesEnv) (n : Services) : ServicesInput → Services
  | .start => n.start env
  | .stop => n.stop env
  | .setAudioConfig config headHash => n.updateAudioConfig env config headHash
  | .configChanged config headHash => { n with config := config, headHash := headHash }
  | .revokeTrust machineId fails => n.revokeTrust machineId fails
  | .pair peer fails => { n with trust := (n.trust.upsert peer fails).1 }
  | .found peer => n.found env peer
  | .lost machineId => n.lost machineId
  | .tick => n.tick env
  | .dialDone => n.takeDialDone env
  | .audioEvent => n.takeAudioEvent env
  | .dial i move => n.stepDial i move
  | .accept => n.accept
  | .signal i move => n.stepSignal i move
  | .bridge reap => n.stepBridge reap
  | .driver peer report => n.stepDriver peer report
  | .pairingEnds => { n with pairingListener := endListener n.pairingListener }
  | .syncEnds => { n with syncListener := endListener n.syncListener }
  -- its connections are dropped with it
  | .audioEnds => { n with audioListener := endListener n.audioListener, signals := [] }
  | .bridgeDies =>
      { n with
        bridge := n.bridge.map fun t =>
          { t with bridge := { t.bridge with sessions := [], exited := true } } }
  | .browserEnds => { n with discoveryRx := n.discoveryRx.map fun _ => true }
  | .shutdown => { n.teardownAudioSubsystem env with halted := true }

/-- One step of the network: none once its loop has returned. -/
def step (n : Services) (input : ServicesEnv × ServicesInput) : Services :=
  if n.halted then n else n.stepRunning input.1 input.2

/-- The `Supervisor` that `Supervisor::new` builds, once the two listeners have been tried. -/
def built (hex : HexCodec) (env : ServicesEnv) (machineId fingerprint : String) (config : Config)
    (headHash : String) (trust : TrustedPeerStore) (userStopped : Bool) : Services where
  hex := hex
  machineId := machineId
  fingerprint := fingerprint
  config := config
  headHash := headHash
  desiredRunning := !userStopped
  trust := trust
  peers := fun _ => none
  events := []
  advertiser := none
  browser := false
  discoveryRx := none
  pairingDeps := config.serverName
  pairingListener :=
    if env.bindPairing.isNone then some ⟨config.serverName, config.servicePort, false⟩ else none
  incomingPairings := true
  syncListener := if env.bindSync.isNone then some ⟨(), config.syncPort, false⟩ else none
  listenerPorts := (config.servicePort, config.syncPort, config.audio.signalPort)
  audio := none
  audioTask := none
  audioListener := none
  audioDialDeps := none
  audioTasks := []
  audioInflight := ∅
  audioLive := ∅
  audioBackoff := fun _ => none
  audioDialDone := []
  signals := []
  bridge := none
  bridges := 0
  halted := false

/-- `Supervisor::new`: discovery as far as it starts, and audio if Synbad is to run. -/
def new (hex : HexCodec) (env : ServicesEnv) (machineId fingerprint : String) (config : Config)
    (headHash : String) (trust : TrustedPeerStore) (userStopped : Bool) : Services :=
  ((built hex env machineId fingerprint config headHash trust userStopped).startDiscovery
    env).reconcileAudioSubsystem env

end Services

end Synbad
