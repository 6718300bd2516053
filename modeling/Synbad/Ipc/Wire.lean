import Synbad.Audio.Bridge
import Synbad.Ipc.LogParse
import Synbad.Ipc.Server
import Synbad.Sync.Session

/-! # The messages on the socket

`synbad-ipc/src/lib.rs`: the requests, responses and events as they travel between the window and the
daemon, each as one line of JSON. All of their fields are texts, flags and whole numbers, with one
exception: the two gains of an `AudioConfig` are `f32`. JSON has no word for a number that is infinite
or no number at all. `serde_json` writes `null` for it, and `null` is refused where an `f32` is read.

What is relied on of the crate, here and in the framing of the messages, is stated as `Wire.Json`, for
messages that it can write: a line has no newline in it; a message whose gains are all finite is read
back from its line; and one with a gain that is not comes back as an error. `gains` collects the
numbers of a message, wherever in it an audio section is: in a document that is set or answered, and
in a request that sets the section alone. The data model of the other parts of the daemon uses types
of its own for what it needs of a message; here they are as they travel, with every field. -/

namespace Synbad

/-- The exponent bits are not all set: the `f32` is neither infinite nor `NaN`. -/
def F32.isFinite (x : F32) : Bool := x.magnitude < 0x7f800000

namespace Wire

open Audio (PeerAudioStatus)
open Ipc (ServerDeps)

/-! ## The messages -/

/-- `SyncDirection`: whether a sync session was begun here or taken from a peer. -/
inductive SyncDirection where
  | inbound
  | outbound

/-- `AudioDeviceInfo`: an input or output device as the window lists it. -/
structure AudioDeviceInfo where
  name : String
  isDefault : Bool
  nativeSampleRate : ℕ
  channels : ℕ
  isLoopback : Bool

/-- `Request`: everything a window asks of the daemon, with what it carries. -/
inductive Request where
  | getStatus
  | getConfig
  | setConfig (config : Config)
  | start
  | stop
  | restart
  | subscribe
  | listPeers
  | getLocalIdentity
  | startPairing (machineId : String)
  | confirmPairing (sessionId : String) (accept : Bool)
  | listTrustedPeers
  | revokeTrust (machineId : String)
  | listAudioDevices
  | setAudioConfig (config : AudioConfig)
  | getAudioStatus
  | shutdown

/-- `Response`: everything the daemon answers, with what it carries. -/
inductive Response where
  | ok
  | status (state : Ipc.DaemonState) (recentLog connectedPeers : List String)
      (activeScreen : Option String)
  | config (config : Config)
  | peers (peers : List DiscoveredPeer)
  | localIdentity (machineId fingerprint : String)
  | trustedPeers (peers : List TrustedPeer)
  | audioDevices (input output : List AudioDeviceInfo)
  | audioStatus (peers : List PeerAudioStatus)
  | error (message : String)

/-- `Event`: everything the daemon broadcasts to those who have subscribed. -/
inductive Event where
  | log (line : String)
  | state (state : Ipc.DaemonState)
  | configChanged
  | peerConnected (name : String)
  | peerDisconnected (name : String)
  | activeScreen (name : String)
  | peerDiscovered (peer : DiscoveredPeer)
  | peerLost (machineId : String)
  | pairingProposed (sessionId peerMachineId peerDisplayName peerFingerprint
      verificationCode : String)
  | pairingCompleted (peer : TrustedPeer)
  | pairingFailed (sessionId reason : String)
  | trustRevoked (machineId : String)
  | syncStarted (peerMachineId : String) (direction : SyncDirection)
  | syncCompleted (peerMachineId : String) (direction : SyncDirection) (updated : Bool)
      (newHead : String)
  | syncFailed (peerMachineId : String) (direction : SyncDirection) (reason : String)
  | audioDevicesChanged
  | audioPeerStatus (status : PeerAudioStatus)
  | audioPeerRemoved (machineId : String)
  | audioError (peer : Option String) (message : String)

/-- `Message`, with the requests, responses and events that it carries. -/
abbrev Message := Ipc.Message Request Response Event

/-! ## The numbers in them -/

/-- The `f32` values that a message carries: the gains of the audio section, wherever a message has
one. -/
def gains : Message → List F32
  | .request (.setConfig config) => [config.audio.inputGain, config.audio.outputGain]
  | .request (.setAudioConfig config) => [config.inputGain, config.outputGain]
  | .response (.config config) => [config.audio.inputGain, config.audio.outputGain]
  | _ => []

/-- Every gain in the message is a finite number. -/
def FiniteGains (m : Message) : Prop := ∀ x ∈ gains m, x.isFinite = true

/-- Whether all gains in a message are finite can be computed. -/
instance (m : Message) : Decidable (FiniteGains m) :=
  inferInstanceAs (Decidable (∀ x ∈ gains m, x.isFinite = true))

/-- What is relied on of `serde_json`, for messages it can write: its lines have no newline in them,
a message whose numbers are finite is read back from its line, and a gain that is not finite is written
as `null`, which is an error where an `f32` is read. -/
structure Json (deps : ServerDeps Request Response Event) : Prop where
  oneLine : ∀ m bytes, deps.toVec m = .ok bytes → Ipc.newline ∉ bytes
  readBack : ∀ m bytes, deps.toVec m = .ok bytes → FiniteGains m →
    deps.fromSlice (bytes ++ [Ipc.newline]) = .ok m
  nullGain : ∀ m bytes, deps.toVec m = .ok bytes → ¬ FiniteGains m →
    ∃ e, deps.fromSlice (bytes ++ [Ipc.newline]) = .error e

end Wire

end Synbad
