import Synbad.Config.Basic
import Synbad.Discovery.Trust
import Synbad.Lib.Keyed

/-! # The audio bridge

`synbad-audio/src/bridge.rs`: one session per peer, opened on an incoming signal, closed when the
configuration no longer asks for it, when its peer is no longer trusted, when its driver ends or when
the supervisor says so. A new configuration is compared with the old one by the same three predicates
a session is opened by, so what stays open is what the new one would open.

The bridge is a loop, and an iteration is a function of what it wakes up to: a tick, a command, or the
end of its commands. Between two iterations the outside may change what they share: the trust store,
the status of a session, whether somebody receives. The bridge keeps a log of what can be seen of it,
sessions put into the map and events received.

`Consistent` is the invariant between two iterations: every session is as the current configuration
prescribes, and the log accounts for the map (`Booked`): of each peer it says an insertion, its
`SessionClosed`, the next insertion and so on (`Alternates`). `Reachable.bridge_sessions` states what
that means in any run; the part that is about the log holds as long as every event was received. -/

namespace Synbad

namespace Audio

/-! ## The source -/

/-- `PeerAudioStatus`: what the window shows of the session with a peer. -/
structure PeerAudioStatus where
  machineId : String
  displayName : String
  sendingToPeer : Bool
  receivingFromPeer : Bool
  rttMs : Option ℕ
  lastError : Option String
  deriving DecidableEq, Repr

/-- What the bridge sends out of its run loop. -/
inductive AudioEvent where
  | peerStatus (status : PeerAudioStatus)
  | error (peer : Option String) (message : String)
  | sessionClosed (peer : String)
  deriving DecidableEq, Repr

/-- `AudioSession`: the device of each stream it holds open (no name is the default device), the status
its driver keeps and whether the driver has ended. -/
structure AudioSession where
  sessionId : String
  peerMachineId : String
  captureStream : Option (Option String)
  playbackStream : Option (Option String)
  status : PeerAudioStatus
  finished : Bool
  -- not a field of the source: what `start` was given
  openedUnder : AudioConfig

/-- `cfg.per_peer.get(peer)`: what differs for this peer, if anything does. -/
def routing (cfg : AudioConfig) (peer : String) : Option PeerAudioRouting :=
  cfg.perPeer.entries.lookup peer

/-- `peer_wants_send`: our sound is to go to this peer; it is unless its entry says otherwise. -/
def peerWantsSend (cfg : AudioConfig) (peer : String) : Bool :=
  ((routing cfg peer).map fun p => p.enabled && p.sendToPeer).getD true

/-- `peer_wants_recv`: the sound of this peer is to be played; it is unless its entry says
otherwise. -/
def peerWantsRecv (cfg : AudioConfig) (peer : String) : Bool :=
  ((routing cfg peer).map fun p => p.enabled && p.receiveFromPeer).getD true

/-- `peer_audio_active`: a session with this peer is to be there, in one direction at least. -/
def peerAudioActive (cfg : AudioConfig) (peer : String) : Bool :=
  if !cfg.enabled then false
  else
    match routing cfg peer with
    | some r => r.enabled && (r.sendToPeer || r.receiveFromPeer)
    | none => true

/-- What opening a session comes to: the two streams, each open or not with an error, and the rest of
`start_inner`, which names the session or fails. -/
structure Opening where
  capture : Except String Unit
  playback : Except String Unit
  inner : Except String String

/-- `AudioCommand`: what the supervisor and the signaling connections ask of the bridge. -/
inductive AudioCommand where
  | incomingSignal (peerMachineId : String) (opening : Opening)
  | reconfigure (newCfg : AudioConfig)
  | listDevices
  | queryStatus
  | closePeer (peerMachineId : String)
  | shutdown

/-- What one iteration of the run loop wakes up to. -/
inductive Input where
  | tick
  | command (cmd : Option AudioCommand)

/-- What the bridge has done that can be seen: a session put into the map, an event received. -/
inductive Entry where
  | inserted (peer sessionId : String)
  | sent (event : AudioEvent)
  deriving DecidableEq, Repr

/-- `AudioBridge`, with the state its run loop shares with others. -/
structure AudioBridge where
  config : AudioConfig
  trust : TrustedPeerStore
  sessions : List AudioSession
  inputGain : F32
  outputGain : F32
  /-- How many more events are received: `none` while the receiver stays. -/
  receiver : Option ℕ
  /-- A `send` has failed since the start, so an event was lost. -/
  refused : Bool
  /-- The run loop is over, and the task with it. -/
  exited : Bool
  log : List Entry

namespace AudioBridge

/-- `AudioBridge::new`: no session, and the gains of the configuration. -/
def new (config : AudioConfig) (trust : TrustedPeerStore) : AudioBridge where
  config := config
  trust := trust
  sessions := []
  inputGain := config.inputGain
  outputGain := config.outputGain
  receiver := none
  refused := false
  exited := false
  log := []

/-- `sessions.get`: the session with a peer, if there is one. -/
def session (b : AudioBridge) (peer : String) : Option AudioSession :=
  Keyed.find AudioSession.peerMachineId peer b.sessions

/-- `sessions.remove`: the session with a peer leaves the map. -/
def remove (b : AudioBridge) (peer : String) : AudioBridge :=
  { b with sessions := Keyed.drop AudioSession.peerMachineId peer b.sessions }

/-- `sessions.insert`: a session is in the map, in the place of one with the same peer. -/
def insert (b : AudioBridge) (s : AudioSession) : AudioBridge :=
  { b with
    sessions := Keyed.put AudioSession.peerMachineId s b.sessions
    log := b.log ++ [.inserted s.peerMachineId s.sessionId] }

/-- `events.send`: an event goes out, as long as there is somebody to receive it. -/
def send (b : AudioBridge) (event : AudioEvent) : AudioBridge :=
  match b.receiver with
  | none => { b with log := b.log ++ [.sent event] }
  | some (k + 1) => { b with receiver := some k, log := b.log ++ [.sent event] }
  | some 0 => { b with refused := true }

/-- Sending is an error: the receiver is gone, and nothing is received any more. -/
def sendIsErr (b : AudioBridge) : Bool := b.receiver == some 0

/-- The sessions a tick removes, one after the other, until an event is refused. -/
def reapAll : List String → AudioBridge → AudioBridge
  | [], b => b
  | peer :: rest, b =>
      let removed := b.remove peer
      let sent := removed.send (.sessionClosed peer)
      -- `return` drops the sessions that are left
      if removed.sendIsErr then { sent with sessions := [], exited := true } else reapAll rest sent

/-- The reap tick: the sessions that have ended or whose peer is not trusted any more are removed. -/
def reap (b : AudioBridge) : AudioBridge :=
  let ended := b.sessions.filter fun s => s.finished || !b.trust.contains s.peerMachineId
  b.reapAll (ended.map AudioSession.peerMachineId)

/-- A session, if there is one, is removed, closed and reported. -/
def closeSession (b : AudioBridge) (peer : String) : AudioBridge :=
  match b.session peer with
  | some _ => (b.remove peer).send (.sessionClosed peer)
  | none => b

/-- A stream of a session, if it is wanted: one that does not open is reported and done without. -/
def openStream (b : AudioBridge) (peer label : String) (wanted : Bool) (device : Option String) :
    Except String Unit → AudioBridge × Option (Option String)
  | .ok () => (b, if wanted then some device else none)
  | .error e =>
      if wanted then (b.send (.error (some peer) (label ++ e)), none) else (b, none)

/-- `AudioSession::start`: both streams as far as they are wanted and open, and then the rest, which
may fail. -/
def start (b : AudioBridge) (peer : String) (opening : Opening) :
    AudioBridge × Except String AudioSession :=
  let cfg := b.config
  let (b, capture) :=
    b.openStream peer "capture: " (peerWantsSend cfg peer) cfg.inputDevice opening.capture
  let (b, playback) :=
    b.openStream peer "playback: " (peerWantsRecv cfg peer) cfg.outputDevice opening.playback
  (b, opening.inner.map fun sessionId =>
    { sessionId := sessionId
      peerMachineId := peer
      captureStream := capture
      playbackStream := playback
      status := ⟨peer, peer, false, false, none, none⟩
      finished := false
      openedUnder := cfg })

/-- `AudioCommand::IncomingSignal`: a trusted peer that is to have a session gets one, in the place of
the one it has. -/
def incomingSignal (b : AudioBridge) (peer : String) (opening : Opening) : AudioBridge :=
  if !b.trust.contains peer then b
  else if !peerAudioActive b.config peer then b
  else
    match (b.closeSession peer).start peer opening with
    | (b, .ok session) => (b.insert session).send (.peerStatus session.status)
    | (b, .error e) => b.send (.error (some peer) e)

/-- The sessions a new configuration closes: those of peers for which it prescribes something else. -/
def closesOn (old new : AudioConfig) (peer : String) : Bool :=
  old.inputDevice != new.inputDevice || old.outputDevice != new.outputDevice ||
    old.enabled != new.enabled || peerWantsSend old peer != peerWantsSend new peer ||
    peerWantsRecv old peer != peerWantsRecv new peer

/-- `AudioCommand::Reconfigure`: the gains are set where they differ, and sessions that are no longer
as prescribed are closed. -/
def reconfigure (b : AudioBridge) (newCfg : AudioConfig) : AudioBridge :=
  let replaced :=
    { b with
      config := newCfg
      inputGain := if b.config.inputGain.eq newCfg.inputGain then b.inputGain else newCfg.inputGain
      outputGain :=
        if b.config.outputGain.eq newCfg.outputGain then b.outputGain else newCfg.outputGain }
  let peersToClose := (b.sessions.map AudioSession.peerMachineId).filter (closesOn b.config newCfg)
  peersToClose.foldl closeSession replaced

/-- What follows the loop: every session is closed, and the task is over. -/
def drain (b : AudioBridge) : AudioBridge :=
  { (b.sessions.map AudioSession.peerMachineId).foldl closeSession b with exited := true }

/-- The reply to `AudioCommand::QueryStatus`: the status of every session. -/
def queryStatus (b : AudioBridge) : List PeerAudioStatus := b.sessions.map AudioSession.status

/-- One iteration of `AudioBridge::run`, by what it wakes up to; none once the loop is over. -/
def iterate (b : AudioBridge) (input : Input) : AudioBridge :=
  if b.exited then b
  else
    match input with
    | .tick => b.reap
    | .command none => b.drain
    | .command (some (.incomingSignal peer opening)) => b.incomingSignal peer opening
    | .command (some (.reconfigure newCfg)) => b.reconfigure newCfg
    | .command (some .listDevices) => b
    | .command (some .queryStatus) => b
    | .command (some (.closePeer peer)) => b.closeSession peer
    | .command (some .shutdown) => b.drain

/-- What happens to the shared state between two iterations. -/
inductive Outside where
  | trustChanges (store : TrustedPeerStore)
  | driverUpdates (peer : String) (status : PeerAudioStatus) (finished : Bool)
  | receiverDrops (after : ℕ)

/-- The shared state after that. A receiver that is dropped still receives what is sent before. -/
def outside (b : AudioBridge) : Outside → AudioBridge
  | .trustChanges store => { b with trust := store }
  | .driverUpdates peer status finished =>
      { b with
        sessions := b.sessions.map fun s =>
          if s.peerMachineId = peer then { s with status := status, finished := finished } else s }
  | .receiverDrops after => { b with receiver := some (b.receiver.elim after (min after)) }

end AudioBridge

/-- **The bridge between two iterations**, in any run. The map is walked in no particular order, so its
entries may stand in any. -/
inductive Reachable (config : AudioConfig) (trust : TrustedPeerStore) : AudioBridge → Prop
  | new : Reachable config trust (.new config trust)
  | iterate {b : AudioBridge} (input : Input) (h : Reachable config trust b) :
      Reachable config trust (b.iterate input)
  | outside {b : AudioBridge} (change : AudioBridge.Outside) (h : Reachable config trust b) :
      Reachable config trust (b.outside change)
  | rehashed {b : AudioBridge} {table : List AudioSession} (order : table.Perm b.sessions)
      (h : Reachable config trust b) : Reachable config trust { b with sessions := table }

/-! ## What the configuration prescribes -/

/-- **A session as the configuration prescribes it**: opened under the same settings, for a peer that is
to have one, on the streams it is to have. -/
structure Prescribed (cfg : AudioConfig) (s : AudioSession) : Prop where
  enabled : s.openedUnder.enabled = cfg.enabled
  inputDevice : s.openedUnder.inputDevice = cfg.inputDevice
  outputDevice : s.openedUnder.outputDevice = cfg.outputDevice
  wantsSend : peerWantsSend s.openedUnder s.peerMachineId = peerWantsSend cfg s.peerMachineId
  wantsRecv : peerWantsRecv s.openedUnder s.peerMachineId = peerWantsRecv cfg s.peerMachineId
  active : peerAudioActive cfg s.peerMachineId = true
  capture : ∀ device, s.captureStream = some device →
    peerWantsSend cfg s.peerMachineId = true ∧ device = cfg.inputDevice
  playback : ∀ device, s.playbackStream = some device →
    peerWantsRecv cfg s.peerMachineId = true ∧ device = cfg.outputDevice

/-- A peer is to have a session if audio is on and one of the directions is wanted. -/
theorem peerAudioActive_eq (cfg : AudioConfig) (peer : String) :
    peerAudioActive cfg peer = (cfg.enabled && (peerWantsSend cfg peer || peerWantsRecv cfg peer)) := by
  unfold peerAudioActive peerWantsSend peerWantsRecv
  cases cfg.enabled with
  | false => rfl
  | true =>
      cases routing cfg peer with
      | none => rfl
      | some r => simp [Bool.and_or_distrib_left]

/-- **What a new configuration leaves open it prescribes**: a session that it does not close is as it
would be opened. -/
theorem Prescribed.reconfigure {old new : AudioConfig} {s : AudioSession} (h : Prescribed old s)
    (hstays : AudioBridge.closesOn old new s.peerMachineId = false) : Prescribed new s := by
  simp only [AudioBridge.closesOn, Bool.or_eq_false_iff, bne_eq_false_iff_eq] at hstays
  obtain ⟨⟨⟨⟨hinput, houtput⟩, henabled⟩, hsend⟩, hrecv⟩ := hstays
  have hactive := h.active
  rw [peerAudioActive_eq, henabled, hsend, hrecv, ← peerAudioActive_eq] at hactive
  exact {
    enabled := h.enabled.trans henabled
    inputDevice := h.inputDevice.trans hinput
    outputDevice := h.outputDevice.trans houtput
    wantsSend := h.wantsSend.trans hsend
    wantsRecv := h.wantsRecv.trans hrecv
    active := hactive
    capture := fun device hd => ⟨hsend ▸ (h.capture device hd).1, hinput ▸ (h.capture device hd).2⟩
    playback := fun device hd =>
      ⟨hrecv ▸ (h.playback device hd).1, houtput ▸ (h.playback device hd).2⟩ }

/-! ## Openings and closings alternate -/

/-- The peer whose session an entry opens or closes. -/
def Entry.about : Entry → Option String
  | .inserted peer _ => some peer
  | .sent (.sessionClosed peer) => some peer
  | .sent _ => none

/-- **The sessions of a peer, one at a time**: what the log says of the peer is an insertion, its
`SessionClosed`, the next insertion and so on, with the last session open or none. -/
inductive Alternates (peer : String) : List Entry → Option String → Prop
  | empty : Alternates peer [] none
  | inserted {log : List Entry} {sessionId : String} (h : Alternates peer log none) :
      Alternates peer (log ++ [.inserted peer sessionId]) (some sessionId)
  | closed {log : List Entry} {sessionId : String} (h : Alternates peer log (some sessionId)) :
      Alternates peer (log ++ [.sent (.sessionClosed peer)]) none
  | other {log : List Entry} {current : Option String} {entry : Entry} (hne : entry.about ≠ some peer)
      (h : Alternates peer log current) : Alternates peer (log ++ [entry]) current

namespace AudioBridge

variable {b : AudioBridge} {s : AudioSession} {peer : String} {peers : List String}

/-- **The log accounts for the map**, as long as every event was received. -/
structure Booked (b : AudioBridge) : Prop where
  nodup : (b.sessions.map AudioSession.peerMachineId).Nodup
  paired : b.refused = false →
    ∀ peer, Alternates peer b.log ((b.session peer).map AudioSession.sessionId)

/-! ### Sending -/

/-- Sending an event changes no session. -/
@[simp] theorem sessions_send (b : AudioBridge) (e : AudioEvent) :
    (b.send e).sessions = b.sessions := by
  unfold send
  split <;> rfl

/-- Nor does it change whose session is found. -/
@[simp] theorem session_send (b : AudioBridge) (e : AudioEvent) (peer : String) :
    (b.send e).session peer = b.session peer := by
  rw [session, sessions_send, session]

/-- Sending an event leaves the configuration alone. -/
@[simp] theorem config_send (b : AudioBridge) (e : AudioEvent) : (b.send e).config = b.config := by
  unfold send
  split <;> rfl

/-- A bridge that sends an event has exited if it had before. -/
@[simp] theorem exited_send (b : AudioBridge) (e : AudioEvent) : (b.send e).exited = b.exited := by
  unfold send
  split <;> rfl

/-- An event that was not refused was received, and so was every one before. -/
theorem log_send {e : AudioEvent} (h : (b.send e).refused = false) :
    (b.send e).log = b.log ++ [.sent e] ∧ b.refused = false := by
  unfold send at h ⊢
  split at h
  · exact ⟨rfl, h⟩
  · exact ⟨rfl, h⟩
  · cases h

/-- A send that fails is remembered, as the bridge exits then. -/
theorem refused_send_of_err {e : AudioEvent} (h : b.sendIsErr = true) :
    (b.send e).refused = true := by
  unfold send
  rw [eq_of_beq h]

/-- What is sent that is about no session leaves the books in order. -/
theorem Booked.send (h : b.Booked) {e : AudioEvent} (he : (Entry.sent e).about = none) :
    (b.send e).Booked where
  nodup := by
    rw [sessions_send]
    exact h.nodup
  paired := by
    intro hsent peer
    obtain ⟨hlog, hrefused⟩ := log_send hsent
    rw [hlog, session_send]
    exact .other (by simp [he]) (h.paired hrefused peer)

/-! ### Closing -/

/-- After a removal the session of that peer is not found, and any other is as it was. -/
theorem session_remove (b : AudioBridge) (peer peer' : String) :
    (b.remove peer).session peer' = if peer = peer' then none else b.session peer' :=
  Keyed.find_drop peer b.sessions peer'

/-- What is left after a removal is the sessions of the other peers. -/
theorem mem_remove : s ∈ (b.remove peer).sessions ↔ s ∈ b.sessions ∧ s.peerMachineId ≠ peer := by
  simp [remove, Keyed.drop]

/-- **A session that leaves the map is reported once.** -/
theorem Booked.closed (h : b.Booked) (hs : b.session peer = some s) :
    ((b.remove peer).send (.sessionClosed peer)).Booked where
  nodup := by
    rw [sessions_send]
    exact Keyed.nodup_drop h.nodup peer
  paired := by
    intro hsent peer'
    obtain ⟨hlog, hrefused⟩ := log_send hsent
    rw [hlog, session_send, session_remove]
    have hbefore := h.paired hrefused peer'
    by_cases hpeer : peer = peer'
    · subst hpeer
      rw [hs] at hbefore
      rw [if_pos rfl]
      exact .closed hbefore
    · rw [if_neg hpeer]
      exact .other (by simpa [Entry.about] using hpeer) hbefore

/-- Closing a session keeps the books: it is removed, and the log says so. -/
theorem Booked.closeSession (h : b.Booked) (peer : String) : (b.closeSession peer).Booked := by
  unfold AudioBridge.closeSession
  cases hs : b.session peer with
  | none => exact h
  | some s => exact h.closed hs

/-- Closing a session leaves the configuration alone. -/
@[simp] theorem config_closeSession (b : AudioBridge) (peer : String) :
    (b.closeSession peer).config = b.config := by
  unfold closeSession
  split
  · rw [config_send]
    rfl
  · rfl

/-- Closing a session does not make the bridge exit. -/
@[simp] theorem exited_closeSession (b : AudioBridge) (peer : String) :
    (b.closeSession peer).exited = b.exited := by
  unfold closeSession
  split
  · rw [exited_send]
    rfl
  · rfl

/-- What is left after closing a peer's session is the sessions of the others. -/
theorem mem_closeSession :
    s ∈ (b.closeSession peer).sessions ↔ s ∈ b.sessions ∧ s.peerMachineId ≠ peer := by
  unfold closeSession
  cases hs : b.session peer with
  | some _ => rw [sessions_send, mem_remove]
  | none =>
      refine ⟨fun hmem => ⟨hmem, fun hpeer => ?_⟩, fun hmem => hmem.1⟩
      -- a session of the peer would have been found
      have hnone := List.find?_eq_none.mp hs s hmem
      simp [hpeer] at hnone

/-- A peer whose session has been closed has none. -/
theorem session_closeSession_self (b : AudioBridge) (peer : String) :
    (b.closeSession peer).session peer = none := by
  refine List.find?_eq_none.mpr fun s hs => ?_
  have hne := (mem_closeSession.mp hs).2
  simpa using hne

/-- Closing the sessions of some peers leaves those of the others. -/
theorem mem_closeAll (peers : List String) :
    s ∈ (peers.foldl closeSession b).sessions ↔ s ∈ b.sessions ∧ s.peerMachineId ∉ peers := by
  induction peers generalizing b with
  | nil => simp
  | cons peer rest ih =>
      rw [List.foldl_cons, ih, mem_closeSession, List.mem_cons, not_or, and_assoc]

/-- Closing sessions one after the other keeps the books. -/
theorem Booked.closeAll (h : b.Booked) (peers : List String) :
    (peers.foldl AudioBridge.closeSession b).Booked := by
  induction peers generalizing b with
  | nil => exact h
  | cons peer rest ih => exact ih (h.closeSession peer)

/-- Closing any number of sessions leaves the configuration alone. -/
theorem config_closeAll (peers : List String) : (peers.foldl closeSession b).config = b.config := by
  induction peers generalizing b with
  | nil => rfl
  | cons peer rest ih => rw [List.foldl_cons, ih, config_closeSession]

/-- Closing any number of sessions does not make the bridge exit. -/
theorem exited_closeAll (peers : List String) : (peers.foldl closeSession b).exited = b.exited := by
  induction peers generalizing b with
  | nil => rfl
  | cons peer rest ih => rw [List.foldl_cons, ih, exited_closeSession]

/-! ### The reap tick -/

/-- What is left after a tick was there, and no peer of it was to go. -/
theorem mem_reapAll (h : s ∈ (reapAll peers b).sessions) :
    s ∈ b.sessions ∧ s.peerMachineId ∉ peers := by
  induction peers generalizing b with
  | nil => exact ⟨h, List.not_mem_nil⟩
  | cons peer rest ih =>
      rw [reapAll] at h
      split at h
      · cases h
      · obtain ⟨hmem, hrest⟩ := ih h
        rw [sessions_send, mem_remove] at hmem
        refine ⟨hmem.1, ?_⟩
        rw [List.mem_cons, not_or]
        exact ⟨hmem.2, hrest⟩

/-- Reaping sessions keeps the books, if each of them is there and is named once. -/
theorem Booked.reapAll (h : b.Booked) (hnodup : peers.Nodup)
    (hopen : ∀ peer ∈ peers, ∃ s, b.session peer = some s) : (b.reapAll peers).Booked := by
  induction peers generalizing b with
  | nil => exact h
  | cons peer rest ih =>
      obtain ⟨hfirst, hrest⟩ := List.nodup_cons.mp hnodup
      obtain ⟨s, hs⟩ := hopen peer List.mem_cons_self
      rw [AudioBridge.reapAll]
      split
      · next herr =>
        -- the tick ends the loop, with an event refused
        refine ⟨List.nodup_nil, fun hsent => ?_⟩
        have hrefused := refused_send_of_err (e := .sessionClosed peer) herr
        exact absurd (hrefused.symm.trans hsent) (by decide)
      · refine ih (h.closed hs) hrest fun peer' hpeer' => ?_
        obtain ⟨s', hs'⟩ := hopen peer' (List.mem_cons_of_mem _ hpeer')
        have hne : peer ≠ peer' := fun heq => hfirst (heq ▸ hpeer')
        exact ⟨s', by rw [session_send, session_remove, if_neg hne, hs']⟩

/-- Reaping leaves the configuration alone. -/
theorem config_reapAll (peers : List String) (b : AudioBridge) :
    (b.reapAll peers).config = b.config := by
  induction peers generalizing b with
  | nil => rfl
  | cons peer rest ih =>
      rw [reapAll]
      split
      · exact config_send _ _
      · rw [ih, config_send]
        rfl

/-- A tick ends the loop with no session left. -/
theorem sessions_reapAll_of_exited (hexited : b.exited = false)
    (h : (b.reapAll peers).exited = true) : (b.reapAll peers).sessions = [] := by
  induction peers generalizing b with
  | nil => exact absurd (hexited.symm.trans h) (by decide)
  | cons peer rest ih =>
      rw [reapAll] at h ⊢
      split at h
      · next herr => rw [if_pos herr]
      · next herr =>
        rw [if_neg herr]
        refine ih ?_ h
        rw [exited_send]
        exact hexited

/-! ### Opening -/

/-- Opening a stream changes nothing but that it may report an error, and there is one only if it
was wanted and opened. -/
theorem openStream_cases (b : AudioBridge) (peer label : String) (wanted : Bool)
    (device : Option String) (outcome : Except String Unit) :
    ((b.openStream peer label wanted device outcome).1 = b ∨
      ∃ e, (b.openStream peer label wanted device outcome).1 = b.send (.error (some peer) e)) ∧
    ∀ d, (b.openStream peer label wanted device outcome).2 = some d → wanted = true ∧ d = device := by
  cases outcome with
  | ok u =>
      refine ⟨Or.inl rfl, fun d hd => ?_⟩
      cases wanted with
      | false => cases hd
      | true => exact ⟨rfl, (Option.some.inj hd).symm⟩
  | error e =>
      cases wanted with
      | false => exact ⟨Or.inl rfl, fun d hd => by cases hd⟩
      | true => exact ⟨Or.inr ⟨label ++ e, rfl⟩, fun d hd => by cases hd⟩

/-- Nothing but the log and the receiver differs, and the log still accounts for the map. -/
structure OnlyReports (b b' : AudioBridge) : Prop where
  sessions : b'.sessions = b.sessions
  config : b'.config = b.config
  exited : b'.exited = b.exited
  booked : b.Booked → b'.Booked

/-- Sending an event that is about no peer's session is no more than a report. -/
theorem OnlyReports.send (b : AudioBridge) {e : AudioEvent} (he : (Entry.sent e).about = none) :
    b.OnlyReports (b.send e) :=
  ⟨sessions_send b e, config_send b e, exited_send b e, fun h => h.send he⟩

/-- Two bridges that only report one after the other only report. -/
theorem OnlyReports.trans {b b' b'' : AudioBridge} (h : b.OnlyReports b') (h' : b'.OnlyReports b'') :
    b.OnlyReports b'' :=
  ⟨h'.sessions.trans h.sessions, h'.config.trans h.config, h'.exited.trans h.exited,
    fun hb => h'.booked (h.booked hb)⟩

/-- Opening a stream only reports. -/
theorem OnlyReports.openStream (b : AudioBridge) (peer label : String) (wanted : Bool)
    (device : Option String) (outcome : Except String Unit) :
    b.OnlyReports (b.openStream peer label wanted device outcome).1 := by
  rcases (openStream_cases b peer label wanted device outcome).1 with h | ⟨e, h⟩
  · rw [h]
    exact ⟨rfl, rfl, rfl, id⟩
  · rw [h]
    exact .send b rfl

/-- Starting a session only reports: it opens two streams and enters nothing. -/
theorem OnlyReports.start (b : AudioBridge) (peer : String) (opening : Opening) :
    b.OnlyReports (b.start peer opening).1 :=
  (OnlyReports.openStream b _ _ _ _ _).trans (OnlyReports.openStream _ _ _ _ _ _)

/-- **A session that starts is as the configuration prescribes.** -/
theorem prescribed_start {opening : Opening} (hactive : peerAudioActive b.config peer = true)
    (h : (b.start peer opening).2 = .ok s) : Prescribed b.config s ∧ s.peerMachineId = peer := by
  unfold start at h
  simp only at h
  cases hinner : opening.inner with
  | error e =>
      rw [hinner] at h
      cases h
  | ok sessionId =>
      rw [hinner] at h
      obtain rfl := Except.ok.inj h
      exact ⟨{
        enabled := rfl
        inputDevice := rfl
        outputDevice := rfl
        wantsSend := rfl
        wantsRecv := rfl
        active := hactive
        capture := (openStream_cases ..).2
        playback := (openStream_cases ..).2 }, rfl⟩

/-- Entering a session keeps the books, if the peer had none. -/
theorem Booked.insert (h : b.Booked) (hnone : b.session s.peerMachineId = none) :
    (b.insert s).Booked where
  nodup := Keyed.nodup_put h.nodup s
  paired := by
    intro hrefused peer
    have hbefore := h.paired hrefused peer
    have hfind : (b.insert s).session peer =
        if s.peerMachineId = peer then some s else b.session peer :=
      Keyed.find_put s b.sessions peer
    rw [hfind]
    by_cases hpeer : s.peerMachineId = peer
    · subst hpeer
      rw [hnone] at hbefore
      rw [if_pos rfl]
      exact .inserted hbefore
    · rw [if_neg hpeer]
      exact .other (by simpa [Entry.about] using hpeer) hbefore

/-! ## The invariant -/

/-- **What holds between two iterations**: the log accounts for the map, sessions are as prescribed,
and a bridge that is over has none. -/
structure Consistent (b : AudioBridge) : Prop extends Booked b where
  prescribed : ∀ s ∈ b.sessions, Prescribed b.config s
  drained : b.exited = true → b.sessions = []

/-- Fewer sessions under the same configuration are still as prescribed. -/
theorem Consistent.of_subset {b' : AudioBridge} (h : b.Consistent) (hbooked : b'.Booked)
    (hconfig : b'.config = b.config) (hsub : ∀ s ∈ b'.sessions, s ∈ b.sessions)
    (hdrained : b'.exited = true → b'.sessions = []) : b'.Consistent where
  toBooked := hbooked
  prescribed := by
    intro s hs
    rw [hconfig]
    exact h.prescribed s (hsub s hs)
  drained := hdrained

/-- Consistency is kept by whatever only reports. -/
theorem Consistent.onlyReports {b' : AudioBridge} (h : b.Consistent) (hrep : b.OnlyReports b') :
    b'.Consistent := by
  refine h.of_subset (hrep.booked h.toBooked) hrep.config ?_ ?_
  · rw [hrep.sessions]
    exact fun s hs => hs
  · rw [hrep.sessions, hrep.exited]
    exact h.drained

/-- Consistency is kept when a session is closed, as long as the bridge runs. -/
theorem Consistent.closeSession (h : b.Consistent) (hexited : b.exited = false) (peer : String) :
    (b.closeSession peer).Consistent := by
  refine h.of_subset (h.toBooked.closeSession peer) (config_closeSession b peer) ?_ ?_
  · exact fun s hs => (mem_closeSession.mp hs).1
  · rw [exited_closeSession, hexited]
    exact fun hfalse => by cases hfalse

/-- Consistency is kept by the reap tick. -/
theorem Consistent.reap (h : b.Consistent) (hexited : b.exited = false) : b.reap.Consistent := by
  refine h.of_subset (h.toBooked.reapAll ?_ ?_) (config_reapAll _ _) ?_ ?_
  · exact (List.Sublist.map _ List.filter_sublist).nodup h.nodup
  · intro peer hpeer
    obtain ⟨s, hs, rfl⟩ := List.mem_map.mp hpeer
    exact ⟨s, (Keyed.find_eq_some_iff h.nodup).mpr ⟨List.mem_of_mem_filter hs, rfl⟩⟩
  · exact fun s hs => (mem_reapAll hs).1
  · exact sessions_reapAll_of_exited hexited

/-- Consistency is kept by a signal: an earlier session of the peer is closed, and a new one is as
the configuration asks. -/
theorem Consistent.incomingSignal (h : b.Consistent) (hexited : b.exited = false) (peer : String)
    (opening : Opening) : (b.incomingSignal peer opening).Consistent := by
  unfold AudioBridge.incomingSignal
  split
  · exact h
  · split
    · exact h
    · next hactive =>
      -- an earlier session of the peer is closed before its place is taken
      have hclosed := h.closeSession hexited peer
      have hrep := OnlyReports.start (b.closeSession peer) peer opening
      have hstarted := hclosed.onlyReports hrep
      have hprescribed : ∀ s, ((b.closeSession peer).start peer opening).2 = .ok s →
          Prescribed (b.closeSession peer).config s ∧ s.peerMachineId = peer := by
        intro s hs
        refine prescribed_start ?_ hs
        rw [config_closeSession]
        simpa using hactive
      have hnone := session_closeSession_self b peer
      generalize (b.closeSession peer).start peer opening = started at *
      obtain ⟨b', outcome⟩ := started
      cases outcome with
      | error e => exact hstarted.onlyReports (.send b' rfl)
      | ok s =>
          obtain ⟨hs, rfl⟩ := hprescribed s rfl
          have hinserted : (b'.insert s).Consistent := by
            -- it is entered where there was none, and runs as the configuration says
            refine ⟨hstarted.toBooked.insert ?_, ?_, ?_⟩
            · rw [session, hrep.sessions]
              exact hnone
            · intro s' hs'
              rcases Keyed.mem_put hs' with rfl | hs'
              · show Prescribed b'.config _
                rw [hrep.config]
                exact hs
              · exact hstarted.prescribed s' hs'
            · intro hfalse
              rw [show (b'.insert s).exited = b'.exited from rfl, hrep.exited, exited_closeSession,
                hexited] at hfalse
              cases hfalse
          exact hinserted.onlyReports (.send _ rfl)

/-- Consistency is kept by a new configuration: all sessions are closed before it counts. -/
theorem Consistent.reconfigure (h : b.Consistent) (hexited : b.exited = false)
    (newCfg : AudioConfig) : (b.reconfigure newCfg).Consistent := by
  unfold AudioBridge.reconfigure
  simp only
  refine ⟨Booked.closeAll ?_ _, ?_, ?_⟩
  · exact ⟨h.nodup, h.paired⟩
  · intro s hs
    obtain ⟨hmem, hstays⟩ := (mem_closeAll _).mp hs
    rw [config_closeAll]
    -- it was not among those to close
    refine (h.prescribed s hmem).reconfigure (Bool.eq_false_iff.mpr fun hcloses => hstays ?_)
    exact List.mem_filter.mpr ⟨List.mem_map_of_mem hmem, hcloses⟩
  · rw [exited_closeAll]
    exact fun hfalse => absurd (hexited.symm.trans hfalse) (by decide)

/-- Consistency is kept when the bridge drains, as all its sessions are closed. -/
theorem Consistent.drain (h : b.Consistent) : b.drain.Consistent := by
  have hempty : b.drain.sessions = [] := by
    refine List.eq_nil_iff_forall_not_mem.mpr fun s hs => ?_
    obtain ⟨hmem, hnot⟩ := (mem_closeAll _).mp hs
    exact hnot (List.mem_map_of_mem hmem)
  have hbooked := h.toBooked.closeAll (b.sessions.map AudioSession.peerMachineId)
  refine ⟨⟨hbooked.nodup, hbooked.paired⟩, ?_, fun _ => hempty⟩
  rw [hempty]
  exact fun s hs => by cases hs

/-- **One iteration keeps it**, whatever it wakes up to. -/
theorem Consistent.iterate (h : b.Consistent) (input : Input) : (b.iterate input).Consistent := by
  unfold AudioBridge.iterate
  cases hexited : b.exited with
  | true => exact h
  | false =>
      rw [if_neg (by simp)]
      match input with
      | .tick => exact h.reap hexited
      | .command none => exact h.drain
      | .command (some (.incomingSignal peer opening)) => exact h.incomingSignal hexited peer opening
      | .command (some (.reconfigure newCfg)) => exact h.reconfigure hexited newCfg
      | .command (some .listDevices) => exact h
      | .command (some .queryStatus) => exact h
      | .command (some (.closePeer peer)) => exact h.closeSession hexited peer
      | .command (some .shutdown) => exact h.drain

/-- What others do to the shared state keeps it. -/
theorem Consistent.outside (h : b.Consistent) (change : Outside) : (b.outside change).Consistent := by
  cases change with
  | trustChanges store => exact ⟨⟨h.nodup, h.paired⟩, h.prescribed, h.drained⟩
  | receiverDrops after => exact ⟨⟨h.nodup, h.paired⟩, h.prescribed, h.drained⟩
  | driverUpdates peer status finished =>
      -- a driver changes neither the peer nor the name of its session, nor what it holds open
      let update := fun s : AudioSession =>
        if s.peerMachineId = peer then { s with status := status, finished := finished } else s
      have hkey : ∀ s, (update s).peerMachineId = s.peerMachineId := by
        intro s
        show (if s.peerMachineId = peer then _ else s).peerMachineId = _
        split <;> rfl
      have hid : ∀ s, (update s).sessionId = s.sessionId := by
        intro s
        show (if s.peerMachineId = peer then _ else s).sessionId = _
        split <;> rfl
      have hprescribed : ∀ s, Prescribed b.config s → Prescribed b.config (update s) := by
        intro s hs
        show Prescribed b.config (if s.peerMachineId = peer then _ else s)
        split
        · exact ⟨hs.enabled, hs.inputDevice, hs.outputDevice, hs.wantsSend, hs.wantsRecv, hs.active,
            hs.capture, hs.playback⟩
        · exact hs
      refine ⟨⟨?_, ?_⟩, ?_, ?_⟩
      · show ((b.sessions.map update).map AudioSession.peerMachineId).Nodup
        rw [List.map_map, show AudioSession.peerMachineId ∘ update = AudioSession.peerMachineId from
          funext hkey]
        exact h.nodup
      · intro hrefused peer'
        have hfind : (b.outside (.driverUpdates peer status finished)).session peer' =
            (b.session peer').map update :=
          Keyed.find_map hkey b.sessions peer'
        rw [hfind, Option.map_map, show AudioSession.sessionId ∘ update = AudioSession.sessionId from
          funext hid]
        exact h.paired hrefused peer'
      · intro s hs
        obtain ⟨s', hs', rfl⟩ := List.mem_map.mp hs
        exact hprescribed s' (h.prescribed s' hs')
      · intro hexited
        show b.sessions.map update = []
        rw [h.drained hexited, List.map_nil]

/-- The order of the table does not matter to consistency, as no peer is in it twice. -/
theorem Consistent.rehashed (h : b.Consistent) {table : List AudioSession}
    (order : table.Perm b.sessions) :
    AudioBridge.Consistent { b with sessions := table } := by
  refine ⟨⟨(order.map _).nodup_iff.mpr h.nodup, ?_⟩, ?_, ?_⟩
  · intro hrefused peer
    have hfind : AudioBridge.session { b with sessions := table } peer = b.session peer :=
      Keyed.find_perm order h.nodup peer
    rw [hfind]
    exact h.paired hrefused peer
  · exact fun s hs => h.prescribed s (order.mem_iff.mp hs)
  · intro hexited
    rw [h.drained hexited] at order
    exact order.eq_nil

/-- A tick leaves no session whose peer is not trusted. -/
theorem contains_of_mem_reap (h : s ∈ b.reap.sessions) : b.trust.contains s.peerMachineId = true := by
  obtain ⟨hmem, hnot⟩ := mem_reapAll h
  by_contra huntrusted
  refine hnot (List.mem_map_of_mem (List.mem_filter.mpr ⟨hmem, ?_⟩))
  rw [Bool.eq_false_iff.mpr huntrusted, Bool.not_false, Bool.or_true]

end AudioBridge

/-- **The invariant along a run**: it holds of every bridge that can be reached. -/
theorem Reachable.consistent {config : AudioConfig} {trust : TrustedPeerStore} {b : AudioBridge}
    (h : Reachable config trust b) : b.Consistent := by
  induction h with
  | new => exact ⟨⟨List.nodup_nil, fun _ _ => .empty⟩, fun s hs => (by cases hs), fun _ => rfl⟩
  | iterate input _ ih => exact ih.iterate input
  | outside change _ ih => exact ih.outside change
  | rehashed order _ ih => exact ih.rehashed order

/-! ### Read off the log -/

/-- The entries of the log that are about a peer. -/
def ofPeer (peer : String) (log : List Entry) : List Entry :=
  log.filter fun e => e.about == some peer

/-- What a log says of a peer is said by its parts in turn. -/
theorem ofPeer_append (peer : String) (xs ys : List Entry) :
    ofPeer peer (xs ++ ys) = ofPeer peer xs ++ ofPeer peer ys := List.filter_append ..

/-- One more entry of the peer comes last among its entries. -/
theorem ofPeer_concat {peer : String} {e : Entry} (h : e.about = some peer) (log : List Entry) :
    ofPeer peer (log ++ [e]) = ofPeer peer log ++ [e] := by
  rw [ofPeer_append]
  simp [ofPeer, h]

/-- One more entry of somebody else changes nothing of the peer's entries. -/
theorem ofPeer_concat_of_ne {peer : String} {e : Entry} (h : e.about ≠ some peer)
    (log : List Entry) : ofPeer peer (log ++ [e]) = ofPeer peer log := by
  rw [ofPeer_append]
  simp [ofPeer, h]

/-- An entry of a log with one more is the new one, or was there before. -/
theorem concat_eq_split {α : Type*} {log before after : List α} {last x : α}
    (h : log ++ [last] = before ++ x :: after) :
    (last = x ∧ after = []) ∨ ∃ after', after = after' ++ [last] ∧ log = before ++ x :: after' := by
  rcases List.eq_nil_or_concat' after with rfl | ⟨after', last', rfl⟩
  · obtain ⟨-, hlast⟩ := List.append_inj' h rfl
    exact Or.inl ⟨(List.cons.inj hlast).1, rfl⟩
  · rw [← List.cons_append, ← List.append_assoc] at h
    obtain ⟨hlog, hlast⟩ := List.append_inj' h rfl
    obtain rfl := (List.cons.inj hlast).1
    exact Or.inr ⟨after', rfl, hlog⟩

/-- **After an insertion** comes one `SessionClosed`, then nothing but the next insertion; and while the
session is in the map, nothing. -/
theorem Alternates.followed {peer sessionId : String} {log before after : List Entry}
    {current : Option String} (h : Alternates peer log current)
    (hlog : log = before ++ .inserted peer sessionId :: after) :
    (current = some sessionId ∧ ofPeer peer after = []) ∨
      ∃ rest, ofPeer peer after = .sent (.sessionClosed peer) :: rest ∧
        (rest = [] → current = none) ∧ ∀ e ∈ rest.head?, ∃ sessionId', e = .inserted peer sessionId' := by
  induction h generalizing after with
  | empty => simp at hlog
  | @inserted log' id h ih =>
      rcases concat_eq_split hlog with ⟨hlast, rfl⟩ | ⟨after', rfl, hlog'⟩
      · -- it is the insertion itself
        obtain ⟨-, rfl⟩ := Entry.inserted.inj hlast
        exact Or.inl ⟨rfl, rfl⟩
      · rcases ih hlog' with ⟨hcur, -⟩ | ⟨rest, hrest, -, hhead⟩
        -- after an insertion the peer had a session, so there is none to follow yet
        · cases hcur
        · right
          refine ⟨rest ++ [.inserted peer id], ?_, by simp, ?_⟩
          · rw [ofPeer_concat rfl, hrest, List.cons_append]
          · cases rest with
            | nil => simp
            | cons r rs => exact hhead
  | @closed log' id h ih =>
      rcases concat_eq_split hlog with ⟨hlast, -⟩ | ⟨after', rfl, hlog'⟩
      · cases hlast
      -- what is closed is what was inserted last
      · right
        rcases ih hlog' with ⟨-, hnone⟩ | ⟨rest, hrest, hempty, hhead⟩
        · exact ⟨[], by rw [ofPeer_concat rfl, hnone, List.nil_append], fun _ => rfl, by simp⟩
        · refine ⟨rest ++ [.sent (.sessionClosed peer)], ?_, by simp, ?_⟩
          · rw [ofPeer_concat rfl, hrest, List.cons_append]
          · cases rest with
            | nil => cases hempty rfl
            | cons r rs => exact hhead
  | @other log' cur entry hne h ih =>
      rcases concat_eq_split hlog with ⟨hlast, -⟩ | ⟨after', rfl, hlog'⟩
      · rw [hlast] at hne
        exact absurd rfl hne
      · rw [ofPeer_concat_of_ne hne]
        exact ih hlog'

/-- **The sessions of the bridge.** Between any two iterations of any run: every session is as the
current configuration prescribes; a tick leaves only sessions of trusted peers; and the log of what was
received shows for each peer one session after the other, each closed once before the next. -/
theorem Reachable.bridge_sessions {config : AudioConfig} {trust : TrustedPeerStore} {b : AudioBridge}
    (h : Reachable config trust b) :
    (∀ s ∈ b.sessions, Prescribed b.config s) ∧
      (∀ s ∈ (b.iterate .tick).sessions, b.trust.contains s.peerMachineId = true) ∧
      (b.refused = false → ∀ peer,
        Alternates peer b.log ((b.session peer).map AudioSession.sessionId) ∧
        ∀ before sessionId after, b.log = before ++ .inserted peer sessionId :: after →
          ((b.session peer).map AudioSession.sessionId = some sessionId ∧ ofPeer peer after = []) ∨
            ∃ rest, ofPeer peer after = .sent (.sessionClosed peer) :: rest ∧
              ∀ e ∈ rest.head?, ∃ sessionId', e = .inserted peer sessionId') := by
  have hinv := h.consistent
  refine ⟨hinv.prescribed, ?_, ?_⟩
  · intro s hs
    unfold AudioBridge.iterate at hs
    split at hs
    · next hexited =>
      rw [hinv.drained hexited] at hs
      cases hs
    · exact AudioBridge.contains_of_mem_reap hs
  · intro hrefused peer
    have halt := hinv.paired hrefused peer
    refine ⟨halt, fun before sessionId after hlog => ?_⟩
    exact (halt.followed hlog).imp_right fun ⟨rest, hrest, _, hhead⟩ => ⟨rest, hrest, hhead⟩

/-- Audio is on, with everything else as it is by default. -/
def enabledConfig : AudioConfig := { AudioConfig.default with enabled := true }

/-- A trust store in which one machine is trusted. -/
def onlyPeer : TrustedPeerStore := ⟨.missing, [⟨"peer", "Peer", "", "", 0⟩]⟩

/-- A signal of that machine, with no device to play on. -/
def signalOf (sessionId : String) : Input :=
  .command (some (.incomingSignal "peer" ⟨.ok (), .error "no device", .ok sessionId⟩))

/-- A bridge at which a session has replaced another of the same peer. -/
def replaced : AudioBridge :=
  ((AudioBridge.new enabledConfig onlyPeer).iterate (signalOf "first")).iterate (signalOf "second")

/-- A session that is replaced is closed before the new one is entered, and the new one is as it
should be. -/
theorem bridge_sessions_replaced :
    ofPeer "peer" replaced.log =
        [.inserted "peer" "first", .sent (.sessionClosed "peer"), .inserted "peer" "second"] ∧
      (∀ s ∈ replaced.sessions, Prescribed replaced.config s) ∧
      ∀ s ∈ (replaced.iterate .tick).sessions, replaced.trust.contains s.peerMachineId = true :=
  have h := Reachable.bridge_sessions (.iterate (signalOf "second") (.iterate (signalOf "first")
    (@Reachable.new enabledConfig onlyPeer)))
  ⟨by decide, h.1, h.2.1⟩

end Audio

end Synbad
