import Synbad.Lib.Run
import Synbad.Lib.Lww
import Synbad.Lib.Bytes
import Synbad.Lib.Lines
import Synbad.Lib.Roster
import Synbad.Lib.Overwrite
import Synbad.Lib.Keyed
import Synbad.Lib.I32
import Synbad.Lib.Drain
import Synbad.Lib.LineReader
import Synbad.Lib.Utf8
import Synbad.Lib.Slots
import Synbad.Lib.Pending
import Synbad.Lib.FirstMatch
import Synbad.Config.Basic
import Synbad.Config.Core
import Synbad.Config.Layout
import Synbad.Config.Topology
import Synbad.Config.CoreInputs
import Synbad.Config.Options
import Synbad.Config.MonitorBox
import Synbad.Config.RotatingLog
import Synbad.Ipc.LogParse
import Synbad.Ipc.LogGrammar
import Synbad.Ipc.Server
import Synbad.Ipc.Wire
import Synbad.Ipc.Framing
import Synbad.Sync.Versioned
import Synbad.Sync.Stamping
import Synbad.Sync.Gossip
import Synbad.Sync.Convergence
import Synbad.Sync.Honest
import Synbad.Supervisor.State
import Synbad.Supervisor.CoreProc
import Synbad.Supervisor.ConfigEdit
import Synbad.Supervisor.Daemon
import Synbad.Supervisor.LogSink
import Synbad.Supervisor.LogReader
import Synbad.Supervisor.Broadcast
import Synbad.Supervisor.Documents
import Synbad.Supervisor.Files
import Synbad.Supervisor.Rollback
import Synbad.Supervisor.Restarts
import Synbad.Supervisor.Lifecycle
import Synbad.Supervisor.Supervision
import Synbad.Supervisor.Children
import Synbad.Supervisor.Bounces
import Synbad.Supervisor.Announced
import Synbad.Supervisor.Commands
import Synbad.Crypto.Cipher
import Synbad.Crypto.Framing
import Synbad.Crypto.Nonces
import Synbad.Crypto.Channel
import Synbad.Crypto.Handshake
import Synbad.Crypto.Sessions
import Synbad.Crypto.Script
import Synbad.Crypto.Agreement
import Synbad.Crypto.Completion
import Synbad.Discovery.Trust
import Synbad.Sync.Protocol
import Synbad.Sync.Session
import Synbad.Discovery.TrustMap
import Synbad.Sync.Node
import Synbad.Sync.Bookkeeping
import Synbad.Sync.Confirmed
import Synbad.Sync.Revocation
import Synbad.Sync.Rejection
import Synbad.Sync.Phases
import Synbad.Sync.Updated
import Synbad.Discovery.Pairing
import Synbad.Discovery.PairingSession
import Synbad.Discovery.Possession
import Synbad.Discovery.Race
import Synbad.Discovery.SignedBytes
import Synbad.Discovery.Binding
import Synbad.Discovery.Transcript
import Synbad.Discovery.Browser
import Synbad.Discovery.Advertiser
import Synbad.Discovery.Identity
import Synbad.Gui.Bootstrap
import Synbad.Gui.EditBuffer
import Synbad.Gui.LayoutEditor
import Synbad.Gui.Drift
import Synbad.Audio.Capture
import Synbad.Audio.Playback
import Synbad.Audio.Bridge
import Synbad.Update.Install
import Synbad.Update.Release
import Synbad.Update.Download
import Synbad.Update.Worker
import Synbad.Update.Dialog
import Synbad.Supervisor.Binaries
import Synbad.Audio.Dial
import Synbad.Supervisor.Services
import Synbad.Supervisor.AudioSteps
import Synbad.Supervisor.AudioLife
import Synbad.Supervisor.AudioReconcile
import Synbad.Supervisor.AudioLive
import Synbad.Supervisor.AudioRevoked
import Synbad.Supervisor.Listeners
import Synbad.Supervisor.PairingSessions
import Synbad.Supervisor.PairingRegistry
import Synbad.Supervisor.PairingRuns
import Synbad.Lib.SocketPath
import Synbad.Ipc.Bind
import Synbad.Gui.SingleInstance
import Synbad.Supervisor.Resolver
