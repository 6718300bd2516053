import Synbad.Discovery.Browser
import Synbad.Lib.Overwrite
import Synbad.Supervisor.Broadcast

/-! # The window and the daemon

What the GUI shows of the daemon, and how it gets it: `ipc_thread.rs` subscribes to the events, then
asks for snapshots over a second connection, and hands everything to `drain_ipc` as updates, the
snapshots first. Events between the subscription and a snapshot are therefore applied to a snapshot
that has seen them. All updates overwrite what they are about, so the window ends up where the daemon
is.

The daemon is a `Publisher`: a node with the events broadcast so far, by its loop and by tasks beside
it. A step broadcasts what it changes (`step_tells`), of the Core as of the peers that are seen. The
window is the record of what it shows, and an event is applied to it by way of an update. That a part
of the window which every event sets or leaves alone ends the same, whether or not some events come
twice, is taken from `Lib.Overwrite`, and `Agrees.catch_up` puts the parts together.
`bootstrap_agrees` is the result for every run of the daemon, with the subscription, the status and
the list of peers each at a moment of its own, in that order. -/

namespace Synbad

/-! ## What is broadcast -/

/-- `Event`, as far as it is about what the window shows. -/
inductive BusEvent where
  | core (e : Ipc.Event)
  | peerDiscovered (peer : DiscoveredPeer)
  | peerLost (machineId : String)
  /-- An event of pairing, trust, sync or audio, which is not about what follows. -/
  | other

namespace Node

/-- What `handle_discovery` broadcasts: nothing if only the protocol version of a known peer differs,
or if a lost one was not known. -/
def discoveryEvent (n : Node) : NodeInput → Option BusEvent
  | .found peer =>
      if (n.peers peer.machineId).any fun p => unchanged p peer then none
      else some (.peerDiscovered peer)
  | .lost machineId => (n.peers machineId).map fun _ => .peerLost machineId
  | _ => none

/-- The answer to `ListPeers`, the map gone through in this order. -/
def listPeers (n : Node) (order : List String) : List DiscoveredPeer := order.filterMap n.peers

end Node

/-- A node with the events broadcast so far, by its loop and by tasks beside it. -/
structure Publisher where
  node : Node
  sent : List BusEvent

/-- What happens next at the publisher: a step of its node, or an event of a task beside the loop. -/
inductive PublisherInput where
  | node (out : Outside) (input : NodeInput)
  /-- A task beside the loop broadcasts: a line about a download, or an event of pairing or sync. -/
  | task (line : Option String)

namespace Publisher

/-- The daemon right after its launch, which has broadcast nothing yet. -/
def new (s : Supervisor) (trust : TrustedPeerStore) : Publisher := ⟨Node.new s trust, []⟩

/-- The loop's own events of one step, those that its supervisor has appended. -/
def loopEvents (n n' : Node) : List BusEvent :=
  (n'.supervisor.events.drop n.supervisor.events.length).map .core

/-- One step: what the node broadcasts in it, and then what discovery does. -/
def step (deps : SyncDeps) (p : Publisher) : PublisherInput → Publisher
  | .node out input =>
      let node := p.node.step deps (out, input)
      let discovered := if p.node.halted then none else p.node.discoveryEvent input
      ⟨node, p.sent ++ loopEvents p.node node ++ discovered.toList⟩
  | .task none => { p with sent := p.sent ++ [.other] }
  | .task (some line) => { p with sent := p.sent ++ [.core (.log line)] }

end Publisher

/-! ## The window -/

/-- `Update`, as far as it is about what follows. -/
inductive Update where
  | connected
  | disconnected
  | status (state : Ipc.DaemonState) (recentLog : List String) (connectedPeers : Finset String)
      (activeScreen : Option String)
  | log (line : String)
  | stateChanged (state : Ipc.DaemonState)
  | peerConnected (name : String)
  | peerDisconnected (name : String)
  | activeScreen (name : String)
  | peerDiscovered (peer : DiscoveredPeer)
  | peerLost (machineId : String)
  | peerSnapshot (peers : List DiscoveredPeer)
  | other

namespace Update

/-- The update `event_loop` makes of an event; an event that is not about the window makes none that
matters. -/
def ofEvent : BusEvent → Update
  | .core (.log line) => .log line
  | .core (.state state) => .stateChanged state
  | .core .configChanged => .other
  | .core (.peerConnected name) => .peerConnected name
  | .core (.peerDisconnected name) => .peerDisconnected name
  | .core (.activeScreen name) => .activeScreen name
  | .peerDiscovered peer => .peerDiscovered peer
  | .peerLost machineId => .peerLost machineId
  | .other => .other

/-- The update `bootstrap` makes of the answer to `GetStatus`; any other answer is passed over. -/
def ofStatus : Response → Update
  | .status state recentLog peers screen => .status state recentLog peers screen
  | _ => .other

end Update

/-- What `SynbadApp` shows of the daemon, and whether it is connected. -/
structure SynbadApp where
  connected : Bool
  state : Ipc.DaemonState
  log : List String
  connectedPeers : Finset String
  activeScreen : Option String
  discoveredPeers : String → Option DiscoveredPeer

namespace SynbadApp

/-- `LOG_CAP`: how many lines of the log the window keeps. -/
def logCap : ℕ := 1000

/-- `push_log`: a line behind the others, of which the oldest goes when there are too many. -/
def pushLog (log : List String) (line : String) : List String :=
  (if logCap ≤ log.length then log.tail else log) ++ [line]

/-- One update of `drain_ipc`, and what it sets. -/
def apply (app : SynbadApp) : Update → SynbadApp
  | .connected => { app with connected := true }
  | .disconnected =>
      { app with
        connected := false, connectedPeers := ∅, activeScreen := none
        discoveredPeers := fun _ => none }
  | .status state recentLog connectedPeers activeScreen =>
      { app with
        state := state, connectedPeers := connectedPeers, activeScreen := activeScreen
        log := recentLog.foldl pushLog [] }
  | .log line => { app with log := pushLog app.log line }
  | .stateChanged state =>
      { app with
        connectedPeers := if state.isRunning then app.connectedPeers else ∅
        activeScreen := if state.isRunning then app.activeScreen else none
        state := state }
  | .peerConnected name => { app with connectedPeers := insert name app.connectedPeers }
  | .peerDisconnected name => { app with connectedPeers := app.connectedPeers.erase name }
  | .activeScreen name => { app with activeScreen := some name }
  | .peerDiscovered peer =>
      { app with discoveredPeers := mapInsert app.discoveredPeers peer.machineId peer }
  | .peerLost machineId => { app with discoveredPeers := mapRemove app.discoveredPeers machineId }
  | .peerSnapshot peers =>
      { app with
        discoveredPeers := peers.foldl (fun m peer => mapInsert m peer.machineId peer) fun _ => none }
  | .other => app

/-- An event applied, by way of the update it becomes. -/
def applyEvent (app : SynbadApp) (e : BusEvent) : SynbadApp := app.apply (.ofEvent e)

/-- `bootstrap`: the status first, then the peers, in the order in which the window asks for them. -/
def bootstrap (app : SynbadApp) (status : Response) (peers : List DiscoveredPeer) : SynbadApp :=
  (app.apply (.ofStatus status)).apply (.peerSnapshot peers)

end SynbadApp

/-- A record without the protocol version, which `handle_discovery` does not compare. -/
def DiscoveredPeer.shown (p : DiscoveredPeer) : DiscoveredPeer := { p with protocolVersion := 0 }

/-- The discovered record of a machine, as far as it is compared. -/
def SynbadApp.discovered (machineId : String) (app : SynbadApp) : Option DiscoveredPeer :=
  (app.discoveredPeers machineId).map DiscoveredPeer.shown

/-- Two windows show the same of the daemon, the log apart. -/
structure SynbadApp.Agrees (app app' : SynbadApp) : Prop where
  state : app.state = app'.state
  connectedPeers : app.connectedPeers = app'.connectedPeers
  activeScreen : app.activeScreen = app'.activeScreen
  discovered : ∀ machineId, app.discovered machineId = app'.discovered machineId

/-! ## Parts of the window -/

section Parts

open Overwrite

namespace SynbadApp

/-- An event sets the state shown, or leaves it, whatever it was. -/
theorem overwrites_state (e : BusEvent) :
    Overwrites (fun app => applyEvent app e) SynbadApp.state := by
  cases e with
  | core e =>
      cases e with
      | state state => exact .sets fun _ => rfl
      | _ => exact .keeps fun _ => rfl
  | _ => exact .keeps fun _ => rfl

/-- A state that is not running clears the screen, and so sets it. -/
theorem overwrites_activeScreen (e : BusEvent) :
    Overwrites (fun app => applyEvent app e) SynbadApp.activeScreen := by
  cases e with
  | core e =>
      cases e with
      | state state =>
          cases hrunning : state.isRunning with
          | true => exact .keeps fun app => by simp [applyEvent, Update.ofEvent, apply, hrunning]
          | false => exact .sets fun app => by simp [applyEvent, Update.ofEvent, apply, hrunning]; rfl
      | activeScreen name => exact .sets fun _ => rfl
      | _ => exact .keeps fun _ => rfl
  | _ => exact .keeps fun _ => rfl

/-- Of the connected peers each is a part of its own. -/
theorem overwrites_connected (name : String) (e : BusEvent) :
    Overwrites (fun app => applyEvent app e) fun app => name ∈ app.connectedPeers := by
  cases e with
  | core e =>
      cases e with
      | state state =>
          cases hrunning : state.isRunning with
          | true => exact .keeps fun app => by simp [applyEvent, Update.ofEvent, apply, hrunning]
          | false =>
              exact .sets (a := False) fun app => by
                simp [applyEvent, Update.ofEvent, apply, hrunning]
      | peerConnected other =>
          by_cases hname : name = other
          · exact .sets (a := True) fun app => by simp [applyEvent, Update.ofEvent, apply, hname]
          · exact .keeps fun app => by simp [applyEvent, Update.ofEvent, apply, hname]
      | peerDisconnected other =>
          by_cases hname : name = other
          · exact .sets (a := False) fun app => by simp [applyEvent, Update.ofEvent, apply, hname]
          · exact .keeps fun app => by simp [applyEvent, Update.ofEvent, apply, hname]
      | _ => exact .keeps fun _ => rfl
  | _ => exact .keeps fun _ => rfl

/-- An event sets what is known of a machine, or leaves it, whatever that was. -/
theorem overwrites_discovered (machineId : String) (e : BusEvent) :
    Overwrites (fun app => applyEvent app e) (discovered machineId) := by
  cases e with
  | core e => cases e <;> exact .keeps fun _ => rfl
  | peerDiscovered peer =>
      by_cases hid : machineId = peer.machineId
      · refine .sets (a := some peer.shown) fun app => ?_
        simp [applyEvent, Update.ofEvent, apply, discovered, hid]
      · refine .keeps fun app => ?_
        simp [applyEvent, Update.ofEvent, apply, discovered, Function.update_of_ne hid]
  | peerLost lost =>
      by_cases hid : machineId = lost
      · refine .sets (a := none) fun app => ?_
        simp [applyEvent, Update.ofEvent, apply, discovered, hid]
      · refine .keeps fun app => ?_
        simp [applyEvent, Update.ofEvent, apply, discovered, Function.update_of_ne hid]
  | other => exact .keeps fun _ => rfl

variable {app app' app'' : SynbadApp}

/-- A window agrees with itself. -/
theorem Agrees.refl (app : SynbadApp) : app.Agrees app := ⟨rfl, rfl, rfl, fun _ => rfl⟩

/-- Two windows that agree with a third agree. -/
theorem Agrees.trans (h : app.Agrees app') (h' : app'.Agrees app'') : app.Agrees app'' where
  state := h.state.trans h'.state
  connectedPeers := h.connectedPeers.trans h'.connectedPeers
  activeScreen := h.activeScreen.trans h'.activeScreen
  discovered machineId := (h.discovered machineId).trans (h'.discovered machineId)

/-- Whoever agrees keeps agreeing over the same events. -/
theorem Agrees.foldl (h : app.Agrees app') (events : List BusEvent) :
    (events.foldl applyEvent app).Agrees (events.foldl applyEvent app') where
  state := (Overwrites.foldl overwrites_state events).congr h.state
  connectedPeers := by
    ext name
    have hname : (name ∈ app.connectedPeers) = (name ∈ app'.connectedPeers) := by
      rw [h.connectedPeers]
    exact iff_of_eq ((Overwrites.foldl (overwrites_connected name) events).congr hname)
  activeScreen := (Overwrites.foldl overwrites_activeScreen events).congr h.activeScreen
  discovered machineId :=
    (Overwrites.foldl (overwrites_discovered machineId) events).congr (h.discovered machineId)

/-- **Snapshots and overlapping events.** The publisher has gone through `early`, `missed` and `later`.
Whoever agrees with it after `missed` and then applies `missed` and `later` agrees with it now. The
discovered peers may come from another snapshot than the rest. -/
theorem Agrees.catch_up {start reader status peers now : SynbadApp}
    {early missed missed' later later' : List BusEvent}
    (hsent : missed ++ later = missed' ++ later')
    (hstate : reader.state = status.state) (hconnected : reader.connectedPeers = status.connectedPeers)
    (hscreen : reader.activeScreen = status.activeScreen)
    (hdiscovered : ∀ machineId, reader.discovered machineId = peers.discovered machineId)
    (hstatus : status.Agrees ((early ++ missed).foldl applyEvent start))
    (hpeers : peers.Agrees ((early ++ missed').foldl applyEvent start))
    (hnow : now.Agrees ((early ++ missed ++ later).foldl applyEvent start)) :
    ((missed ++ later).foldl applyEvent reader).Agrees now where
  state := Overwrite.catch_up overwrites_state (hstate.trans hstatus.state) hnow.state
  connectedPeers := by
    ext name
    have hreader : (name ∈ reader.connectedPeers) =
        (name ∈ ((early ++ missed).foldl applyEvent start).connectedPeers) := by
      rw [hconnected, hstatus.connectedPeers]
    have hwriter : (name ∈ now.connectedPeers) =
        (name ∈ ((early ++ missed ++ later).foldl applyEvent start).connectedPeers) := by
      rw [hnow.connectedPeers]
    exact iff_of_eq (Overwrite.catch_up (overwrites_connected name) hreader hwriter)
  activeScreen :=
    Overwrite.catch_up overwrites_activeScreen (hscreen.trans hstatus.activeScreen)
      hnow.activeScreen
  discovered machineId := by
    have hnow' := hnow.discovered machineId
    rw [List.append_assoc, hsent, ← List.append_assoc] at hnow'
    rw [hsent]
    exact Overwrite.catch_up (overwrites_discovered machineId)
      ((hdiscovered machineId).trans (hpeers.discovered machineId)) hnow'

/-- What a window shows of the Core, as the supervisor's view has it. -/
def coreView (app : SynbadApp) : CoreView := ⟨app.state, app.connectedPeers, app.activeScreen⟩

/-- The window clears on a change of state exactly as the daemon does. -/
theorem applyEvent_coreView (app : SynbadApp) (e : Ipc.Event) :
    (app.applyEvent (.core e)).coreView = app.coreView.see e := by
  cases e with
  | state state =>
      cases hrunning : state.isRunning <;>
        simp [applyEvent, Update.ofEvent, apply, coreView, CoreView.see, hrunning]
  | _ => rfl

/-- Events of the Core leave the discovered peers alone. -/
theorem foldl_core (events : List Ipc.Event) (app : SynbadApp) :
    ((events.map BusEvent.core).foldl applyEvent app).coreView =
        events.foldl CoreView.see app.coreView ∧
      ((events.map BusEvent.core).foldl applyEvent app).discoveredPeers = app.discoveredPeers := by
  induction events generalizing app with
  | nil => exact ⟨rfl, rfl⟩
  | cons e events ih =>
      rw [List.map_cons, List.foldl_cons, List.foldl_cons, ← applyEvent_coreView]
      refine ⟨(ih _).1, (ih _).2.trans ?_⟩
      cases e <;> rfl

end SynbadApp

end Parts

/-! ## The daemon's view and its events -/

namespace Node

variable {deps : SyncDeps} {out : Outside}

/-- A window that shows exactly what the daemon has. -/
def app (n : Node) : SynbadApp where
  connected := true
  state := n.supervisor.state
  log := []
  connectedPeers := n.supervisor.connectedPeers
  activeScreen := n.supervisor.activeScreen
  discoveredPeers := n.peers

/-- The supervisor and the peers, which are what the window shows. -/
def visible (n : Node) : Supervisor × (String → Option DiscoveredPeer) := (n.supervisor, n.peers)

/-- Dialing all peers is not seen by a window. -/
theorem pullAll_visible (n : Node) : (n.pullAll deps out).visible = n.visible := by
  rw [(pullAll_pulled n).frame]
  rfl

/-- Answering a session is not seen by a window. -/
theorem answer_visible (n : Node) (reply : VersionedConfig) (requester : Requester) :
    (n.answer deps reply requester).visible = n.visible := by
  unfold answer
  split <;> split <;> rfl

/-- A question to the loop is not seen by a window, if its asking is not. -/
theorem ask_visible (n : Node) (op : SyncOp) (requester : Requester) {asked : Node → Node}
    (h : ∀ m, (asked m).visible = m.visible) : (n.ask op requester asked).visible = n.visible := by
  unfold ask
  split
  · exact h _
  · rfl

/-- A step of an outbound session is not seen by a window. -/
theorem stepOutbound_visible (n : Node) (id : ℕ) (move : OutboundMove) :
    (n.stepOutbound deps id move).visible = n.visible := by
  unfold stepOutbound
  split
  · rfl
  split
  · exact ask_visible _ _ _ fun _ => rfl
  · exact ask_visible _ _ _ fun _ => rfl
  · rfl

/-- A step of an inbound session is not seen by a window. -/
theorem stepInbound_visible (n : Node) (id : ℕ) (move : InboundMove) :
    (n.stepInbound deps id move).visible = n.visible := by
  unfold stepInbound
  split
  · rfl
  split
  · exact ask_visible _ _ _ fun _ => rfl
  · exact ask_visible _ _ _ fun _ => rfl
  · rfl

/-- What a step makes of the peers that are seen. -/
def peersAfter (n : Node) : NodeInput → String → Option DiscoveredPeer
  | .found peer => mapInsert n.peers peer.machineId peer
  | .lost machineId => mapRemove n.peers machineId
  | _ => n.peers

/-- What an event of the loop changes it tells, and it touches no peer. -/
theorem handleLoop_visible (n : Node) (e : LoopEvent) :
    n.supervisor.Tells (n.handleLoop deps out e).supervisor ∧
      (n.handleLoop deps out e).peers = n.peers := by
  have hhandled := (Supervisor.Tells.refl n.supervisor).handle out.env e
  simp only [handleLoop]
  split
  · exact ⟨hhandled.stopCore, rfl⟩
  split
  · rw [pushToTrustedPeers, (pullAll_pulled _).frame]
    exact ⟨hhandled, rfl⟩
  · exact ⟨hhandled, rfl⟩

/-- What an operation of the queue changes it tells, and it touches no peer. -/
theorem handleOp_visible (n : Node) :
    n.supervisor.Tells (n.handleOp deps out).supervisor ∧ (n.handleOp deps out).peers = n.peers := by
  cases hops : n.syncOps with
  | nil =>
      rw [handleOp, hops]
      exact ⟨.refl _, rfl⟩
  | cons x rest =>
      rw [handleOp, hops]
      have hvisible := @answer_visible deps { n with
        supervisor := n.supervisor.handle out.env (.syncOp x.1), syncOps := rest }
        (n.supervisor.handle out.env (.syncOp x.1)).versioned x.2
      refine ⟨?_, congrArg Prod.snd hvisible⟩
      rw [show (answer deps _ _ x.2).supervisor = _ from congrArg Prod.fst hvisible]
      exact (Supervisor.Tells.refl n.supervisor).handle out.env (.syncOp x.1)

variable (deps out) in
/-- **A step of a node** changes what the window shows only as told by its events and, where
discovery is concerned, as `peersAfter` says. -/
theorem stepRunning_visible (n : Node) (input : NodeInput) :
    n.supervisor.Tells (n.stepRunning deps out input).supervisor ∧
      (n.stepRunning deps out input).peers = n.peersAfter input := by
  have hsame : ∀ {m : Node}, m.visible = n.visible →
      n.supervisor.Tells m.supervisor ∧ m.peers = n.peers := by
    intro m h
    rw [show m.supervisor = n.supervisor from congrArg Prod.fst h]
    exact ⟨.refl _, congrArg Prod.snd h⟩
  -- only a document or a peer is seen by a window
  cases input with
  | loop e =>
      cases e with
      | syncOp op => exact hsame rfl
      | _ => exact handleLoop_visible n _
  | syncOp => exact handleOp_visible n
  | found peer =>
      refine ⟨?_, found_peers n peer⟩
      show n.supervisor.Tells (n.found deps out peer).supervisor
      rw [show (n.found deps out peer).supervisor = _ from congrArg Prod.fst (found_core n peer)]
      exact .refl _
  | lost machineId =>
      refine ⟨?_, lost_peers n machineId⟩
      show n.supervisor.Tells (n.lost machineId).supervisor
      rw [show (n.lost machineId).supervisor = _ from congrArg Prod.fst (lost_core n machineId)]
      exact .refl _
  | tick => exact hsame (pullAll_visible (n.reap out.env.now))
  | revokeTrust machineId fails => exact hsame rfl
  | pair peer fails => exact hsame rfl
  | outbound id move => exact hsame (stepOutbound_visible n id move)
  | accept => exact hsame rfl
  | inbound id move => exact hsame (stepInbound_visible n id move)
  | editConfig file => exact ⟨⟨[], (List.append_nil _).symm, rfl⟩, rfl⟩

/-- Records of a peer are compared without the protocol version. -/
theorem unchanged_iff {old new : DiscoveredPeer} : unchanged old new = true ↔ old.shown = new.shown := by
  cases old
  cases new
  simp [unchanged, DiscoveredPeer.shown]
  tauto

/-- What discovery broadcasts tells what it does to the peers, protocol versions apart. -/
theorem discoveryEvent_tells (n : Node) (input : NodeInput) {app : SynbadApp}
    (h : app.discoveredPeers = n.peers) (machineId : String) :
    ((n.discoveryEvent input).toList.foldl SynbadApp.applyEvent app).discovered machineId =
      (n.peersAfter input machineId).map DiscoveredPeer.shown := by
  have hsame : app.discovered machineId = (n.peers machineId).map DiscoveredPeer.shown := by
    rw [SynbadApp.discovered, h]
  cases input with
  | found peer =>
      by_cases hshown : (n.peers peer.machineId).any fun p => unchanged p peer
      · -- the record that is put in shows the same as the one there
        obtain ⟨old, hold, hunchanged⟩ := (Option.any_eq_true _ _).mp hshown
        simp only [discoveryEvent, hshown, if_true, Option.toList_none, List.foldl_nil, peersAfter]
        rw [hsame]
        by_cases hid : machineId = peer.machineId
        · rw [hid, hold, mapInsert, Function.update_self, Option.map_some, Option.map_some,
            unchanged_iff.mp hunchanged]
        · rw [mapInsert, Function.update_of_ne hid]
      · simp [discoveryEvent, hshown, peersAfter, SynbadApp.discovered, SynbadApp.applyEvent,
          Update.ofEvent, SynbadApp.apply, h]
  | lost lost =>
      cases hpeer : n.peers lost with
      | none =>
          simp only [discoveryEvent, hpeer, Option.map_none, Option.toList_none, List.foldl_nil,
            peersAfter]
          rw [hsame, mapRemove, Function.update_eq_self_iff.mpr hpeer.symm]
      | some peer =>
          simp [discoveryEvent, hpeer, peersAfter, SynbadApp.discovered, SynbadApp.applyEvent,
            Update.ofEvent, SynbadApp.apply, h]
  | _ => exact hsame

end Node

namespace Publisher

variable {deps : SyncDeps}

variable (deps) in
/-- **One step of the publisher** broadcasts what it changes. -/
theorem step_tells (p : Publisher) (input : PublisherInput) :
    ∃ news, (p.step deps input).sent = p.sent ++ news ∧
      (p.step deps input).node.app.Agrees (news.foldl SynbadApp.applyEvent p.node.app) := by
  cases input with
  | task line =>
      cases line with
      | none => exact ⟨[.other], rfl, .refl _⟩
      | some line => exact ⟨[.core (.log line)], rfl, ⟨rfl, rfl, rfl, fun _ => rfl⟩⟩
  | node out input =>
      cases hhalted : p.node.halted with
      | true =>
          have hstep : p.node.step deps (out, input) = p.node := by simp [Node.step, hhalted]
          refine ⟨[], ?_, ?_⟩
          · simp [step, hstep, loopEvents, hhalted]
          · simp only [step, hstep, List.foldl_nil]
            exact .refl _
      | false =>
          have hstep : p.node.step deps (out, input) = p.node.stepRunning deps out input := by
            simp [Node.step, hhalted]
          obtain ⟨⟨events, hevents, hview⟩, hpeers⟩ :=
            Node.stepRunning_visible deps out p.node input
          -- what the loop broadcast is what its event list grew by
          have hloop : loopEvents p.node (p.node.stepRunning deps out input) =
              events.map BusEvent.core := by
            rw [loopEvents, hevents, List.drop_left]
          refine ⟨events.map .core ++ (p.node.discoveryEvent input).toList, ?_, ?_⟩
          · simp [step, hstep, hloop, hhalted]
          · obtain ⟨hcore, hdiscovered⟩ := SynbadApp.foldl_core events p.node.app
            simp only [step, hstep]
            rw [List.foldl_append]
            -- the event of discovery, if there is one, is not about the Core
            have hkept : (((p.node.discoveryEvent input).toList.foldl SynbadApp.applyEvent
                ((events.map BusEvent.core).foldl SynbadApp.applyEvent p.node.app)).coreView) =
                (p.node.stepRunning deps out input).app.coreView := by
              refine Eq.trans ?_ (hcore.trans hview.symm)
              cases input with
              | found peer =>
                  simp only [Node.discoveryEvent]
                  split <;> rfl
              | lost machineId =>
                  simp only [Node.discoveryEvent]
                  cases p.node.peers machineId <;> rfl
              | _ => rfl
            refine ⟨?_, ?_, ?_, fun machineId => ?_⟩
            · exact (congrArg CoreView.state hkept).symm
            · exact (congrArg CoreView.connectedPeers hkept).symm
            · exact (congrArg CoreView.activeScreen hkept).symm
            · rw [Node.discoveryEvent_tells p.node input hdiscovered machineId, ← hpeers]
              rfl

section Runs

variable (deps) (s : Supervisor) (trust : TrustedPeerStore) (inputs : List PublisherInput)

/-- The publisher after the first inputs of a run. -/
abbrev after (n : ℕ) : Publisher := Run.after (step deps) (new s trust) inputs n

/-- What is broadcast from one point of a run to a later one tells the difference. -/
theorem run_tells {k n : ℕ} (h : k ≤ n) :
    ∃ later, (after deps s trust inputs n).sent = (after deps s trust inputs k).sent ++ later ∧
      (after deps s trust inputs n).node.app.Agrees
        (later.foldl SynbadApp.applyEvent (after deps s trust inputs k).node.app) := by
  -- on the later point; `foldl_append` joins what each step broadcasts
  induction n, h using Nat.le_induction with
  | base => exact ⟨[], (List.append_nil _).symm, .refl _⟩
  | succ n _ ih =>
      obtain ⟨later, hsent, hagrees⟩ := ih
      cases hinput : inputs[n]? with
      | none =>
          rw [after, Run.after_succ_none hinput]
          exact ⟨later, hsent, hagrees⟩
      | some input =>
          rw [after, Run.after_succ hinput]
          obtain ⟨news, hnews, htold⟩ := step_tells deps (after deps s trust inputs n) input
          refine ⟨later ++ news, ?_, ?_⟩
          · rw [hnews, hsent, List.append_assoc]
          · rw [List.foldl_append]
            exact htold.trans (hagrees.foldl news)

/-- Every peer that is seen is kept under its own id, at every moment of a run. -/
theorem run_keyed (n : ℕ) : ∀ machineId peer,
    (after deps s trust inputs n).node.peers machineId = some peer → peer.machineId = machineId := by
  refine Run.invariant (P := fun p : Publisher =>
    ∀ machineId peer, p.node.peers machineId = some peer → peer.machineId = machineId) ?_ ?_ n
  · intro machineId peer h
    cases h
  · intro n input _ ih machineId peer h
    generalize Run.after (step deps) (new s trust) inputs n = p at ih h
    cases input with
    | task line => cases line <;> exact ih machineId peer h
    | node out input =>
        simp only [step, Node.step] at h
        split at h
        · exact ih machineId peer h
        rw [(Node.stepRunning_visible deps out p.node input).2] at h
        cases input with
        | found found =>
            by_cases hid : machineId = found.machineId
            · rw [Node.peersAfter, mapInsert, hid, Function.update_self] at h
              cases h
              exact hid.symm
            · rw [Node.peersAfter, mapInsert, Function.update_of_ne hid] at h
              exact ih machineId peer h
        | lost lost => exact ih machineId peer (Node.mapRemove_some h).2
        | _ => exact ih machineId peer h

end Runs

end Publisher

/-! ## The bootstrap -/

/-- A list that has every peer, each under its own id, rebuilds the map. -/
theorem foldl_mapInsert_eq {peers : String → Option DiscoveredPeer} (list : List DiscoveredPeer)
    (hlist : ∀ peer ∈ list, peers peer.machineId = some peer) (m : String → Option DiscoveredPeer)
    (machineId : String) :
    list.foldl (fun m peer => mapInsert m peer.machineId peer) m machineId =
      if machineId ∈ list.map DiscoveredPeer.machineId then peers machineId else m machineId := by
  induction list generalizing m with
  | nil => simp
  | cons peer list ih =>
      rw [List.foldl_cons, ih fun p hp => hlist p (List.mem_cons_of_mem _ hp)]
      by_cases htail : machineId ∈ list.map DiscoveredPeer.machineId
      · simp [htail]
      by_cases hid : machineId = peer.machineId
      · rw [if_neg htail, if_pos (by simp [hid]), mapInsert, hid, Function.update_self]
        exact (hlist peer List.mem_cons_self).symm
      · rw [if_neg htail, if_neg (by simp [hid] at htail ⊢; exact htail), mapInsert,
          Function.update_of_ne hid]

/-- The peers of a snapshot are those of the daemon. -/
theorem SynbadApp.discovered_snapshot {n : Node} {order : List String}
    (hkeyed : ∀ machineId peer, n.peers machineId = some peer → peer.machineId = machineId)
    (horder : ∀ machineId, (n.peers machineId).isSome → machineId ∈ order) (app : SynbadApp)
    (machineId : String) :
    (app.apply (.peerSnapshot (n.listPeers order))).discovered machineId =
      n.app.discovered machineId := by
  have hlist : ∀ peer ∈ n.listPeers order, n.peers peer.machineId = some peer := by
    intro peer hpeer
    obtain ⟨id, -, hid⟩ := List.mem_filterMap.mp hpeer
    rwa [hkeyed id peer hid]
  have hmap := foldl_mapInsert_eq (n.listPeers order) hlist (fun _ => none) machineId
  simp only [SynbadApp.apply, SynbadApp.discovered]
  rw [hmap]
  by_cases hmem : machineId ∈ (n.listPeers order).map DiscoveredPeer.machineId
  · rw [if_pos hmem]
    rfl
  · -- a peer that is not in the list is not there
    have hnone : n.peers machineId = none := by
      cases hpeer : n.peers machineId with
      | none => rfl
      | some peer =>
          have hin := horder machineId (by rw [hpeer]; rfl)
          refine absurd (List.mem_map.mpr ⟨peer, ?_, hkeyed machineId peer hpeer⟩) hmem
          exact List.mem_filterMap.mpr ⟨machineId, hin, hpeer⟩
    rw [if_neg hmem]
    exact congrArg (Option.map DiscoveredPeer.shown) hnone.symm

namespace Publisher

/-- **The window shows the daemon.** For every run of the daemon, let the subscription start when
`subscribed` events have been broadcast, and let the status and the peers be asked for at any later
points of the run. A window that applies the two snapshots and then every event since the subscription
shows, at any point from there on, what the daemon has. -/
theorem bootstrap_agrees (deps : SyncDeps) (s : Supervisor) (trust : TrustedPeerStore)
    (inputs : List PublisherInput) (app : SynbadApp) (env : Env) (order : List String)
    {subscribed status peers n : ℕ} (hstatus : status ≤ n) (hpeers : peers ≤ n)
    (hsubscribed : subscribed ≤ (after deps s trust inputs status).sent.length)
    (hsubscribed' : subscribed ≤ (after deps s trust inputs peers).sent.length)
    (horder : ∀ machineId, ((after deps s trust inputs peers).node.peers machineId).isSome →
      machineId ∈ order) :
    (((after deps s trust inputs n).sent.drop subscribed).foldl SynbadApp.applyEvent
      (app.bootstrap
        ((after deps s trust inputs status).node.supervisor.handleRequest env .getStatus).2
        ((after deps s trust inputs peers).node.listPeers order))).Agrees
      (after deps s trust inputs n).node.app := by
  -- what is shown at each point comes from the events up to it
  have hfrom : ∀ k, (after deps s trust inputs k).node.app.Agrees
      ((after deps s trust inputs k).sent.foldl SynbadApp.applyEvent (new s trust).node.app) := by
    intro k
    obtain ⟨later, hsent, htold⟩ := run_tells deps s trust inputs (Nat.zero_le k)
    rw [hsent]
    exact htold
  obtain ⟨later, hlater, -⟩ := run_tells deps s trust inputs hstatus
  obtain ⟨later', hlater', -⟩ := run_tells deps s trust inputs hpeers
  have hdrop : (after deps s trust inputs n).sent.drop subscribed =
      (after deps s trust inputs status).sent.drop subscribed ++ later := by
    rw [hlater, List.drop_append_of_le_length hsubscribed]
  have hdrop' : (after deps s trust inputs n).sent.drop subscribed =
      (after deps s trust inputs peers).sent.drop subscribed ++ later' := by
    rw [hlater', List.drop_append_of_le_length hsubscribed']
  -- what was missed before the subscription is the same for both snapshots
  have hearly : (after deps s trust inputs peers).sent.take subscribed =
      (after deps s trust inputs status).sent.take subscribed := by
    have htake := congrArg (List.take subscribed) (hlater'.symm.trans hlater)
    rwa [List.take_append_of_le_length hsubscribed',
      List.take_append_of_le_length hsubscribed] at htake
  have hatStatus := hfrom status
  have hatPeers := hfrom peers
  have hnow := hfrom n
  rw [← List.take_append_drop subscribed (after deps s trust inputs status).sent] at hatStatus
  rw [← List.take_append_drop subscribed (after deps s trust inputs peers).sent, hearly] at hatPeers
  rw [hlater, ← List.take_append_drop subscribed (after deps s trust inputs status).sent] at hnow
  -- the status fixes the Core's part of the window, the peer list the rest
  generalize hreader : app.bootstrap _ _ = reader
  have hstate : reader.coreView = (after deps s trust inputs status).node.app.coreView := by
    rw [← hreader]
    rfl
  have hdiscovered : ∀ machineId,
      reader.discovered machineId = (after deps s trust inputs peers).node.app.discovered machineId := by
    rw [← hreader]
    exact SynbadApp.discovered_snapshot (run_keyed deps s trust inputs peers) horder _
  rw [hdrop]
  exact SynbadApp.Agrees.catch_up (hdrop.symm.trans hdrop') (congrArg CoreView.state hstate)
    (congrArg CoreView.connectedPeers hstate) (congrArg CoreView.activeScreen hstate) hdiscovered
    hatStatus hatPeers hnow

/-- `b` is found after the subscription and before the snapshots, and lost after them. -/
def sampleInputs : List PublisherInput :=
  [.task none, .node Node.sampleOutside (.found (Node.samplePeer "0")),
    .node Node.sampleOutside (.loop (.log "client \"b\" has connected")),
    .node Node.sampleOutside (.lost "b")]

/-- A window that subscribes and then asks agrees with the daemon, once it has heard the events. -/
theorem bootstrap_agrees_sample :
    let deps := Node.sampleDeps (.initial Config.default "a")
    let run := after deps Node.sampleSupervisor Node.sampleTrust sampleInputs
    (((run 4).sent.drop 1).foldl SynbadApp.applyEvent
      (SynbadApp.bootstrap ⟨false, .stopped, [], ∅, none, fun _ => none⟩
        ((run 3).node.supervisor.handleRequest (.calm 0 100) .getStatus).2
        ((run 2).node.listPeers ["b"]))).Agrees (run 4).node.app := by
  have horder : ∀ machineId, ((after (Node.sampleDeps (.initial Config.default "a"))
      Node.sampleSupervisor Node.sampleTrust sampleInputs 2).node.peers machineId).isSome →
        machineId ∈ ["b"] := by
    intro machineId h
    by_cases hid : machineId = "b"
    · simp [hid]
    · have hnode : (after (Node.sampleDeps (.initial Config.default "a")) Node.sampleSupervisor
          Node.sampleTrust sampleInputs 2).node =
          (Node.new Node.sampleSupervisor Node.sampleTrust).found
            (Node.sampleDeps (.initial Config.default "a")) Node.sampleOutside
            (Node.samplePeer "0") := rfl
      have hother : machineId ≠ (Node.samplePeer "0").machineId := hid
      rw [hnode, Node.found_peers, mapInsert, Function.update_of_ne hother] at h
      cases h
  exact bootstrap_agrees (Node.sampleDeps (.initial Config.default "a")) Node.sampleSupervisor
    Node.sampleTrust sampleInputs _ (.calm 0 100) ["b"] (by decide) (by decide)
    (by decide +kernel) (by decide +kernel) horder

end Publisher

end Synbad
