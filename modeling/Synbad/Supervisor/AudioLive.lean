import Synbad.Supervisor.AudioReconcile

/-! # Live peers have sessions

The loop's picture of who is live lags behind the bridge by the events in the channel. Once these are
heard, a peer that counts as live has a session, as long as the bridge's task runs; and if it has
died, the next tick replaces it.

The bridge reports everything it does to its sessions, in the order in which it does it, so the events
that are still in the channel say what is to come. `Tells` is that for the steps of one iteration of
the bridge (`Tells.iterate`), and `Heard` is the invariant of the loop: the peers taken for live,
brought up to date with the events on their way, have sessions. Every move keeps it (`Heard.move`),
since a move either takes an event off the channel and hears it, or adds what the bridge has told.

`live_peers_have_sessions` states it for every state of every run, together with the tick that leaves
a bridge that runs (`bridgeRuns_tick`). The task of a session that was closed or replaced reports
nothing more: it is aborted with its session. -/

namespace Synbad

open Audio

namespace Services

variable {b b' b'' : AudioBridge} {live live' : Finset String} {e : AudioEvent} {peer : String}

/-- A session that is opened is the peer's, and so is its status. -/
theorem peer_of_start {opening : Opening} {s : AudioSession}
    (hs : (b.start peer opening).2 = .ok s) : s.peerMachineId = peer ∧ s.status.machineId = peer := by
  unfold AudioBridge.start at hs
  cases hinner : opening.inner with
  | error e =>
      rw [hinner] at hs
      cases hs
  | ok sessionId =>
      rw [hinner] at hs
      cases hs
      exact ⟨rfl, rfl⟩

/-! ## What the bridge tells -/

/-- Every peer that is counted as live has a session with this bridge. -/
def Holds (b : AudioBridge) (live : Finset String) : Prop := ∀ p ∈ live, (b.session p).isSome = true

/-- The status of a session is about its peer. -/
def Named (b : AudioBridge) : Prop := ∀ s ∈ b.sessions, s.status.machineId = s.peerMachineId

/-- What holds of who is live holds of fewer. -/
theorem Holds.mono (h : Holds b live) (hsub : live' ⊆ live) : Holds b live' :=
  fun p hp => h p (hsub hp)

/-- An event other than a status makes nobody live. -/
theorem hearLive_subset (h : ∀ status, e ≠ .peerStatus status) : hearLive live e ⊆ live := by
  cases e with
  | peerStatus status => exact absurd rfl (h status)
  | error peer message =>
      cases peer with
      | none => exact Finset.Subset.refl _
      | some peer => exact Finset.erase_subset ..
  | sessionClosed peer => exact Finset.erase_subset ..

/-- A status makes at most its own peer live, so if that has a session nothing is lost. -/
theorem Holds.peerStatus (h : Holds b live) {status : PeerAudioStatus}
    (hsession : (b.session status.machineId).isSome = true) :
    Holds b (hearLive live (.peerStatus status)) := by
  simp only [hearLive]
  split
  · exact h.mono (Finset.erase_subset ..)
  · intro p hp
    obtain rfl | hp := Finset.mem_insert.mp hp
    · exact hsession
    · exact h p hp

/-- Whoever is told to be live has a session, so what is heard keeps that so. -/
theorem Holds.heard {told : List AudioEvent} (h : Holds b live)
    (htold : ∀ e ∈ told, ∀ status, e = .peerStatus status →
      (b.session status.machineId).isSome = true) : Holds b (told.foldl hearLive live) := by
  induction told generalizing live with
  | nil => exact h
  | cons e told ih =>
      refine ih ?_ fun e' he' => htold e' (List.mem_cons_of_mem _ he')
      by_cases hstatus : ∃ status, e = .peerStatus status
      · obtain ⟨status, rfl⟩ := hstatus
        exact h.peerStatus (htold _ List.mem_cons_self status rfl)
      · exact h.mono (hearLive_subset fun status heq => hstatus ⟨status, heq⟩)

/-- **What the bridge tells of what it does**: it appends to its log, and once that is heard, the peers
taken for live still have their sessions. -/
structure Tells (b b' : AudioBridge) : Prop where
  receiver : b'.receiver = none
  named : Named b'
  told : ∃ entries, b'.log = b.log ++ entries ∧
    ∀ live, Holds b live → Holds b' ((entries.filterMap eventOf).foldl hearLive live)

/-- A bridge whose events are received and whose statuses are about their peers. -/
structure Sound (b : AudioBridge) : Prop where
  receiver : b.receiver = none
  named : Named b

namespace Tells

/-- After it has told what has changed the bridge is sound. -/
theorem sound (h : Tells b b') : Sound b' := ⟨h.receiver, h.named⟩

/-- A bridge that does nothing tells all there is to tell. -/
theorem refl (h : Sound b) : Tells b b :=
  ⟨h.receiver, h.named, [], (List.append_nil _).symm, fun _ hlive => hlive⟩

/-- Two steps that tell what they change do so together. -/
theorem trans (h : Tells b b') (h' : Tells b' b'') : Tells b b'' := by
  obtain ⟨entries, hlog, htold⟩ := h.told
  obtain ⟨entries', hlog', htold'⟩ := h'.told
  refine ⟨h'.receiver, h'.named, entries ++ entries', ?_, fun live hlive => ?_⟩
  · rw [hlog', hlog, List.append_assoc]
  · rw [List.filterMap_append, List.foldl_append]
    exact htold' _ (htold live hlive)

/-- Nothing but what the log does not speak of changes. -/
theorem quiet (h : Sound b) (hreceiver : b'.receiver = b.receiver) (hsessions : b'.sessions = b.sessions)
    (hlog : b'.log = b.log) : Tells b b' := by
  refine ⟨hreceiver.trans h.receiver, ?_, [], by rw [hlog, List.append_nil], fun live hlive p hp => ?_⟩
  · unfold Named
    rw [hsessions]
    exact h.named
  · rw [AudioBridge.session, hsessions]
    exact hlive p hp

/-- Without a receiver an event is written to the log only. -/
theorem log_send_of_received (h : b.receiver = none) (e : AudioEvent) :
    b.send e = { b with log := b.log ++ [.sent e] } := by
  unfold AudioBridge.send
  rw [h]

/-- An event that makes nobody live may be sent at any time. -/
theorem send (h : Sound b) (hquiet : ∀ status, e ≠ .peerStatus status) : Tells b (b.send e) := by
  rw [log_send_of_received h.receiver]
  exact ⟨h.receiver, h.named, [.sent e], rfl, fun _ hlive => hlive.mono (hearLive_subset hquiet)⟩

/-- The status of a session may be sent as long as the bridge has the session. -/
theorem sendStatus (h : Sound b) {status : PeerAudioStatus}
    (hsession : (b.session status.machineId).isSome = true) : Tells b (b.send (.peerStatus status)) := by
  rw [log_send_of_received h.receiver]
  exact ⟨h.receiver, h.named, [.sent (.peerStatus status)], rfl, fun _ hlive => hlive.peerStatus hsession⟩

/-- **A session is removed and reported**, in that order: its closing is heard after it is gone. -/
theorem removed (h : Sound b) (peer : String) : Tells b ((b.remove peer).send (.sessionClosed peer)) := by
  have hreceiver : (b.remove peer).receiver = none := h.receiver
  rw [log_send_of_received hreceiver]
  refine ⟨h.receiver, fun s hs => h.named s (AudioBridge.mem_remove.mp hs).1,
    [.sent (.sessionClosed peer)], rfl, fun live hlive p hp => ?_⟩
  obtain ⟨hne, hp⟩ := Finset.mem_erase.mp hp
  have hfind := AudioBridge.session_remove b peer p
  rw [if_neg (Ne.symm hne)] at hfind
  exact (congrArg Option.isSome hfind).trans (hlive p hp)

/-- Closing a session is told. -/
theorem closeSession (h : Sound b) (peer : String) : Tells b (b.closeSession peer) := by
  unfold AudioBridge.closeSession
  split
  · exact removed h peer
  · exact refl h

/-- Closing sessions one after the other is told. -/
theorem closeAll (h : Sound b) (peers : List String) :
    Tells b (peers.foldl AudioBridge.closeSession b) := by
  induction peers generalizing b with
  | nil => exact refl h
  | cons peer peers ih =>
      have hfirst := closeSession h peer
      exact hfirst.trans (ih hfirst.sound)

/-- With the receiver there, a tick removes one session after the other. -/
theorem reapAll (h : Sound b) (peers : List String) : Tells b (b.reapAll peers) := by
  induction peers generalizing b with
  | nil => exact refl h
  | cons peer peers ih =>
      have hfirst := removed h peer
      have hreceived : (b.remove peer).sendIsErr = false := by
        unfold AudioBridge.sendIsErr
        rw [show (b.remove peer).receiver = none from h.receiver]
        rfl
      rw [AudioBridge.reapAll, hreceived, if_neg Bool.false_ne_true]
      exact hfirst.trans (ih hfirst.sound)

/-- Opening a stream is told if it fails, and changes nothing. -/
theorem openStream (h : Sound b) (peer label : String) (wanted : Bool) (device : Option String)
    (outcome : Except String Unit) : Tells b (b.openStream peer label wanted device outcome).1 := by
  obtain heq | ⟨e, heq⟩ := (AudioBridge.openStream_cases b peer label wanted device outcome).1
  · rw [heq]
    exact refl h
  · rw [heq]
    exact send h nofun

/-- A session is put into the map, under the peer it is of. -/
theorem insert (h : Sound b) {s : AudioSession} (hs : s.status.machineId = s.peerMachineId) :
    Tells b (b.insert s) := by
  refine ⟨h.receiver, fun x hx => ?_, [.inserted s.peerMachineId s.sessionId], rfl,
    fun live hlive p hp => ?_⟩
  · obtain rfl | hx := Keyed.mem_put hx
    · exact hs
    · exact h.named x hx
  · have hfind : (b.insert s).session p = if s.peerMachineId = p then some s else b.session p :=
      Keyed.find_put s b.sessions p
    rw [hfind]
    split
    · rfl
    · exact hlive p hp

/-- Starting a session is told as its streams are. -/
theorem start (h : Sound b) (peer : String) (opening : Opening) :
    Tells b (b.start peer opening).1 := by
  have hcapture := openStream h peer "capture: " (peerWantsSend b.config peer) b.config.inputDevice
    opening.capture
  have hplayback := openStream hcapture.sound peer "playback: " (peerWantsRecv b.config peer)
    b.config.outputDevice opening.playback
  exact hcapture.trans hplayback

/-- A signal is told: a session that goes, and one that comes up. -/
theorem incomingSignal (h : Sound b) (peer : String) (opening : Opening) :
    Tells b (b.incomingSignal peer opening) := by
  unfold AudioBridge.incomingSignal
  split_ifs
  · exact refl h
  · exact refl h
  · have hclosed := closeSession h peer
    have hstarted := start hclosed.sound peer opening
    split
    · next b' session heq =>
        obtain ⟨hkey, hstatus⟩ := peer_of_start (congrArg Prod.snd heq)
        rw [heq] at hstarted
        have hinserted := insert hstarted.sound (hstatus.trans hkey.symm)
        refine hclosed.trans (hstarted.trans (hinserted.trans (sendStatus hinserted.sound ?_)))
        have hfind : (b'.insert session).session session.status.machineId =
            if session.peerMachineId = session.status.machineId then some session
            else b'.session session.status.machineId := Keyed.find_put session b'.sessions _
        rw [if_pos (hkey.trans hstatus.symm)] at hfind
        exact congrArg Option.isSome hfind
    · next b' e heq =>
        rw [heq] at hstarted
        exact hclosed.trans (hstarted.trans (send hstarted.sound nofun))

/-- A new configuration is told: all sessions go. -/
theorem reconfigure (h : Sound b) (newCfg : AudioConfig) : Tells b (b.reconfigure newCfg) := by
  unfold AudioBridge.reconfigure
  refine (quiet h ?_ ?_ ?_).trans (closeAll ?_ _)
  · rfl
  · rfl
  · rfl
  · exact ⟨h.receiver, h.named⟩

/-- A bridge that drains tells that its sessions have gone. -/
theorem drain (h : Sound b) : Tells b b.drain := by
  have hclosed := closeAll h (b.sessions.map AudioSession.peerMachineId)
  exact ⟨hclosed.receiver, hclosed.named, hclosed.told⟩

/-- **An iteration of the bridge tells what it does.** -/
theorem iterate (h : Sound b) (input : Audio.Input) : Tells b (b.iterate input) := by
  unfold AudioBridge.iterate
  split
  · exact refl h
  · split
    · exact reapAll h _
    · exact drain h
    · exact incomingSignal h ..
    · exact reconfigure h _
    · exact refl h
    · exact refl h
    · exact closeSession h _
    · exact drain h

end Tells

/-- The events of an iteration, once heard, leave a picture that holds of the bridge after it. -/
theorem Tells.newEvents (h : Tells b b') (hlive : Holds b live) :
    Holds b' ((Services.newEvents b b').foldl hearLive live) := by
  obtain ⟨entries, hlog, htold⟩ := h.told
  unfold Services.newEvents
  rw [hlog, List.drop_left]
  exact htold live hlive

/-! ## The loop's picture -/

/-- **Once the events on their way are heard, who is live has a session**, unless the bridge's task is
over. -/
structure Heard (n : Services) : Prop where
  sound : ∀ t ∈ n.bridge, Sound t.bridge
  holds : ∀ t ∈ n.bridge, t.bridge.exited = true ∨
    Holds t.bridge (t.events.foldl hearLive n.audioLive)

namespace Heard

variable {env : ServicesEnv} {n n' : Services} {T : TrustedPeerStore → Prop}

/-- The fewer are live before some events are heard, the fewer are so afterwards. -/
theorem foldl_mono (events : List AudioEvent) (h : live' ⊆ live) :
    events.foldl hearLive live' ⊆ events.foldl hearLive live := by
  induction events generalizing live live' with
  | nil => exact h
  | cons e events ih =>
      refine ih ?_
      unfold hearLive
      split
      · split
        · exact Finset.erase_subset_erase _ h
        · exact Finset.insert_subset_insert _ h
      · exact Finset.erase_subset_erase _ h
      · exact h
      · exact Finset.erase_subset_erase _ h

/-- Fewer peers are counted as live, and the bridge and its events stay. -/
theorem same (h : n.Heard) (hbridge : n'.bridge = n.bridge) (hlive : n'.audioLive ⊆ n.audioLive) :
    n'.Heard where
  sound t ht := h.sound t (hbridge ▸ ht)
  holds t ht := (h.holds t (hbridge ▸ ht)).imp_right fun hholds => hholds.mono (foldl_mono t.events hlive)

/-- The bridge goes on, and what it does it tells. -/
theorem withBridge (h : n.Heard) {t t' : BridgeTask} (ht : n.bridge = some t)
    (hsound : Sound t'.bridge)
    (hholds : t.bridge.exited = false → Holds t.bridge (t.events.foldl hearLive n.audioLive) →
      t'.bridge.exited = true ∨ Holds t'.bridge (t'.events.foldl hearLive n.audioLive))
    (hexited : t.bridge.exited = true → t'.bridge.exited = true) : (n.withBridge t').Heard where
  sound x hx := by
    cases hx
    exact hsound
  holds x hx := by
    cases hx
    cases hrunning : t.bridge.exited with
    | true => exact .inl (hexited hrunning)
    | false =>
        obtain hover | hlive := h.holds t ht
        · rw [hrunning] at hover
          cases hover
        · exact hholds hrunning hlive

/-- A change of the commands that wait for the bridge leaves the picture as it is. -/
theorem withCommands (h : n.Heard) {t : BridgeTask} (ht : n.bridge = some t)
    (commands : List AudioCommand) : (n.withBridge { t with commands := commands }).Heard :=
  h.withBridge ht (h.sound t ht) (fun _ hlive => .inr hlive) id

/-- The bridge runs its loop once, over the trust store as it is. -/
theorem iterated (h : n.Heard) {t : BridgeTask} (ht : n.bridge = some t) (store : TrustedPeerStore)
    (input : Audio.Input) (commands : List AudioCommand) :
    (n.withBridge ⟨t.number, (t.bridge.outside (.trustChanges store)).iterate input, commands,
      t.events ++ newEvents (t.bridge.outside (.trustChanges store))
        ((t.bridge.outside (.trustChanges store)).iterate input)⟩).Heard := by
  have hsound : Sound (t.bridge.outside (.trustChanges store)) :=
    ⟨(h.sound t ht).receiver, (h.sound t ht).named⟩
  have htells := Tells.iterate hsound input
  refine h.withBridge ht htells.sound (fun _ hlive => .inr ?_) fun hover => ?_
  · rw [List.foldl_append]
    exact htells.newEvents hlive
  · have hover' : (t.bridge.outside (.trustChanges store)).exited = true := hover
    show ((t.bridge.outside (.trustChanges store)).iterate input).exited = true
    unfold AudioBridge.iterate
    rw [if_pos hover']
    exact hover'

/-- An iteration of the bridge keeps what will have been heard right. -/
theorem stepBridge (h : n.Heard) (reap : Bool) : (n.stepBridge reap).Heard := by
  unfold Services.stepBridge
  split
  · exact h
  · next t ht =>
      split
      · exact h.iterated ht n.trust .tick _
      · exact h.iterated ht n.trust (.command _) _
      · exact h

/-- The status a driver keeps is about the same peer. -/
theorem driven (h : n.Heard) {t : BridgeTask} (ht : n.bridge = some t) {peer : String}
    {s : AudioSession} (hs : t.bridge.session peer = some s) {status : PeerAudioStatus}
    (hstatus : status.machineId = s.status.machineId) (finished : Bool) {told : List AudioEvent}
    (htold : ∀ e ∈ told, ∀ status', e = .peerStatus status' → status'.machineId = s.status.machineId) :
    (n.withBridge { t with
      bridge := t.bridge.outside (.driverUpdates peer status finished)
      events := t.events ++ told }).Heard := by
  have hsound := h.sound t ht
  obtain ⟨hmem, hkey⟩ := Keyed.mem_of_find hs
  have hname : s.status.machineId = peer := (hsound.named s hmem).trans hkey
  -- the sessions keep their peers
  have hsession : ∀ p, ((t.bridge.outside (.driverUpdates peer status finished)).session p).isSome =
      (t.bridge.session p).isSome := by
    intro p
    have hfind : (t.bridge.outside (.driverUpdates peer status finished)).session p =
        (t.bridge.session p).map fun x => if x.peerMachineId = peer then
          { x with status := status, finished := finished } else x :=
      Keyed.find_map (fun x => by split <;> rfl) t.bridge.sessions p
    rw [hfind, Option.isSome_map]
  refine h.withBridge ht ⟨hsound.receiver, fun x hx => ?_⟩ (fun _ hlive => .inr ?_) id
  · obtain ⟨y, hy, rfl⟩ := List.mem_map.mp hx
    split
    · next hpeer => exact (hstatus.trans hname).trans hpeer.symm
    · exact hsound.named y hy
  · rw [List.foldl_append]
    refine Holds.heard (fun p hp => (hsession p).trans (hlive p hp)) fun e he status' hstatus' => ?_
    rw [hsession, htold e he status' hstatus', hname, hs]
    rfl

/-- A status a driver sends is the one it leaves. -/
theorem told_status (report : DriverReport) (peer : String) (s : PeerAudioStatus) (room : Bool)
    {e : AudioEvent} (he : e ∈ report.told peer s room) {status : PeerAudioStatus}
    (hstatus : e = .peerStatus status) : status = report.leaves s := by
  subst hstatus
  cases report with
  | status sending receiving lastError =>
      simp only [DriverReport.told] at he
      split at he
      · exact AudioEvent.peerStatus.inj (List.mem_singleton.mp he)
      · cases he
  | ended error =>
      cases error with
      | none => cases he
      | some message => cases List.mem_singleton.mp he

/-- What a driver reports keeps it right. -/
theorem stepDriver (h : n.Heard) (peer : String) (report : DriverReport) :
    (n.stepDriver peer report).Heard := by
  unfold Services.stepDriver
  split
  · exact h
  · next t ht =>
      split
      · exact h
      · next s hs =>
          split
          · exact h
          · refine h.driven ht hs ?_ report.ends fun e he status' hstatus' => ?_
            · cases report <;> rfl
            · rw [told_status report peer s.status _ he hstatus']
              cases report <;> rfl

/-- A command that is sent keeps it right. -/
theorem trySend (h : n.Heard) (c : AudioCommand) : (n.trySend c).Heard := by
  obtain heq | ⟨t, ht, -, heq⟩ := trySend_cases n c
  · rwa [heq]
  · rw [heq]
    exact h.withCommands ht _

/-- A step of a dial keeps it right: it hands its stream over, or ends. -/
theorem stepDial (h : n.Heard) (i : ℕ) (move : DialMove) : (n.stepDial i move).Heard := by
  obtain heq | ⟨d, -, heq | ⟨heq, -⟩ | ⟨t, trusted, opening, ht, -, -, heq⟩ | ⟨outcome, -, heq⟩⟩ :=
    stepDial_cases n i move
  · rwa [heq]
  · rw [heq]
    exact h.same rfl (Finset.Subset.refl _)
  · rw [heq]
    exact h.same rfl (Finset.Subset.refl _)
  · rw [heq]
    exact (h.withCommands ht _).same rfl (Finset.Subset.refl _)
  · rw [heq]
    exact h.same rfl (Finset.Subset.refl _)

/-- A step of an accepted connection keeps it right. -/
theorem stepSignal (h : n.Heard) (i : ℕ) (move : SignalMove) : (n.stepSignal i move).Heard := by
  unfold Services.stepSignal
  split
  · exact h
  · split
    · split
      · exact h.same rfl (Finset.Subset.refl _)
      · next t ht =>
          split_ifs
          · exact h.same rfl (Finset.Subset.refl _)
          · exact (h.withCommands ht _).same rfl (Finset.Subset.refl _)
          · exact h
    · exact h.same rfl (Finset.Subset.refl _)

/-- Hearing an event leaves the picture that is complete once the others are heard. -/
theorem takeAudioEvent (h : n.Heard) : (n.takeAudioEvent env).Heard := by
  obtain heq | ⟨t, e, rest, backoff, told, -, ht, hevents, -, heq⟩ := takeAudioEvent_cases env n
  · rwa [heq]
  · rw [heq]
    refine ⟨fun x hx => ?_, fun x hx => ?_⟩
    · cases hx
      exact h.sound t ht
    · cases hx
      have hholds := h.holds t ht
      rw [hevents] at hholds
      exact hholds

/-- A subsystem that has come up has a bridge of its own. -/
theorem bridge_bringUp (n : Services) (listener : Option (ListenerTask ℕ)) :
    (n.bringUp listener).bridge = some n.spawnBridge := rfl

/-- A bridge that comes up has no session, and nobody was live while there was none. -/
theorem bringUp (listener : Option (ListenerTask ℕ)) (hlive : Holds n.spawnBridge.bridge n.audioLive) :
    (n.bringUp listener).Heard where
  sound t ht := by
    rw [Option.mem_def, bridge_bringUp] at ht
    rw [← Option.some.inj ht]
    exact ⟨rfl, fun s hs => absurd hs List.not_mem_nil⟩
  holds t ht := by
    rw [Option.mem_def, bridge_bringUp] at ht
    rw [← Option.some.inj ht]
    exact .inr hlive

/-- **Every move leaves the picture right** once it is complete. -/
theorem move (step : Move env T n n') (hwired : n.Wired) (h : n.Heard) : n'.Heard := by
  cases step with
  | aside => exact h.same rfl (Finset.Subset.refl _)
  | trust => exact h.same rfl (Finset.Subset.refl _)
  | emit => exact h.same rfl (Finset.Subset.refl _)
  | bringUp listener down deps =>
      refine bringUp listener ?_
      -- a subsystem that comes up finds nobody entered as connected
      rw [hwired.live down]
      exact fun p hp => absurd hp (Finset.notMem_empty p)
  | teardown => exact ⟨nofun, nofun⟩
  | dial peer =>
      obtain heq | ⟨bridge, -, heq⟩ := dialAudioOne_cases env n peer
      · rwa [heq]
      · rw [heq]
        exact h.same rfl (Finset.Subset.refl _)
  | gc => exact h.same rfl (Finset.Subset.refl _)
  | forget live sub => exact h.same rfl sub
  | dialDone =>
      obtain heq | ⟨outcome, rest, backoff, -, heq⟩ := takeDialDone_cases env n
      · rwa [heq]
      · rw [heq]
        exact h.same rfl (Finset.Subset.refl _)
  | audioEvent => exact h.takeAudioEvent
  | send c => exact h.trySend c
  | stepDial i move => exact h.stepDial i move
  | listener => exact h.same rfl (Finset.Subset.refl _)
  | accept =>
      unfold Services.accept
      split
      · exact h
      · dsimp only
        split
        · exact h.same rfl (Finset.Subset.refl _)
        · exact h
  | stepSignal i move => exact h.stepSignal i move
  | bridge reap => exact h.stepBridge reap
  | driver peer report => exact h.stepDriver peer report
  | bridgeDies =>
      refine ⟨fun t ht => ?_, fun t ht => .inl ?_⟩
      · obtain ⟨t', ht', rfl⟩ := Option.map_eq_some_iff.mp ht
        -- the bridge's sessions have ended with it; who was connected is forgotten when that is
        -- noticed
        exact ⟨(h.sound t' ht').receiver, fun s hs => absurd hs List.not_mem_nil⟩
      · obtain ⟨t', ht', rfl⟩ := Option.map_eq_some_iff.mp ht
        rfl

end Heard

/-! ## The bridge runs after a tick -/

/-- The bridge's task runs, if there is a bridge. -/
def BridgeRuns (n : Services) : Prop := ∀ t ∈ n.bridge, t.bridge.exited = false

variable {env : ServicesEnv} {n n' : Services}

/-- A bridge that is the same runs as it did. -/
theorem BridgeRuns.same (h : n.BridgeRuns) (hbridge : n'.bridge = n.bridge) : n'.BridgeRuns := by
  intro t ht
  exact h t (hbridge ▸ ht)

/-- A command that is sent does not end the bridge. -/
theorem BridgeRuns.trySend (h : n.BridgeRuns) (c : AudioCommand) : (n.trySend c).BridgeRuns := by
  obtain heq | ⟨t, ht, -, heq⟩ := trySend_cases n c
  · rwa [heq]
  · rw [heq]
    intro t' ht'
    rw [← Option.some.inj ht']
    exact h t ht

/-- Dialing who is due does not touch the bridge. -/
theorem bridge_reconcileAudioSessions (env : ServicesEnv) (n : Services) :
    (n.reconcileAudioSessions env).bridge = n.bridge := by
  unfold reconcileAudioSessions
  split
  · rfl
  · obtain ⟨inflight, tasks, -, heq⟩ := dials_frame env (env.order.filterMap n.peers) n
    rw [heq]

/-- After a dead bridge has been taken down the one there is runs. -/
theorem BridgeRuns.retireAudio (env : ServicesEnv) (h : n.Wired) : (n.retireAudio env).BridgeRuns := by
  unfold Services.retireAudio
  split
  · exact nofun
  · next hkeep =>
      intro t ht
      rw [not_or] at hkeep
      have htask : n.audioTask.isSome = true := by
        rw [h.audioTask, ← h.bridge, Option.mem_def.mp ht]
        rfl
      have hended := Bool.eq_false_iff.mpr hkeep.2
      unfold bridgeEnded at hended
      rw [htask, Bool.true_and, Option.mem_def.mp ht] at hended
      exact hended

/-- Where the bridge runs, putting the switch right leaves one that runs. -/
theorem BridgeRuns.reconcileAudioSubsystem (env : ServicesEnv) (h : n.BridgeRuns) :
    (n.reconcileAudioSubsystem env).BridgeRuns := by
  unfold Services.reconcileAudioSubsystem
  split_ifs
  · exact nofun
  · exact h
  · unfold ensureAudioSubsystem
    split_ifs
    · exact h
    · exact h
    · have hup : (n.bringUp (n.bringUpListener env)).BridgeRuns := by
        intro t ht
        rw [Option.mem_def, Heard.bridge_bringUp] at ht
        rw [← Option.some.inj ht]
        rfl
      refine BridgeRuns.same ?_ (bridge_reconcileAudioSessions env _)
      split
      · exact hup.same rfl
      · exact hup

/-- The end of a tick does not touch the bridge. -/
theorem bridge_finishTick (env : ServicesEnv) (n : Services) : (n.finishTick env).bridge = n.bridge := by
  have hretire : n.retireAudioListener.bridge = n.bridge := by
    unfold retireAudioListener
    split <;> rfl
  have hreopen : (n.retireAudioListener.reopenAudioListener env).bridge =
      n.retireAudioListener.bridge := by
    unfold reopenAudioListener
    split
    · rfl
    · split <;> rfl
  exact hreopen.trans hretire

/-- **After a tick the bridge runs**, whatever had become of its task. -/
theorem bridgeRuns_tick (env : ServicesEnv) {n : Services} (h : n.Wired) : (n.tick env).BridgeRuns := by
  have hbegin : (n.beginTick env).Wired :=
    Moves.invariant (T := fun _ => True) Moves.beginTick (fun m m' step hm => Wired.move step hm) h
  have haudio : (((n.beginTick env).retireAudio env).reopenAudio env).BridgeRuns := by
    have hreconciled := (BridgeRuns.retireAudio env hbegin).reconcileAudioSubsystem env
    exact (hreconciled.trySend _).same rfl
  rw [tick_eq]
  exact (haudio.same (bridge_finishTick env _)).same (bridge_reconcileAudioSessions env _)

/-! ## Live peers have sessions -/

/-- The peers that will count as live once the events on their way are heard. -/
def believed (n : Services) : Finset String :=
  match n.bridge with
  | none => n.audioLive
  | some t => t.events.foldl hearLive n.audioLive

/-- The peer has a session with the bridge that there is. -/
def hasSession (n : Services) (p : String) : Bool := n.bridge.any fun t => (t.bridge.session p).isSome

/-- Whoever is believed to be live has a session, as long as the bridge runs. -/
theorem Heard.hasSession (h : n.Heard) (hwired : n.Wired) (hruns : n.BridgeRuns) :
    ∀ p ∈ n.believed, n.hasSession p = true := by
  intro p hp
  unfold believed at hp
  unfold Services.hasSession
  cases hbridge : n.bridge with
  | none =>
      -- without a bridge nobody is live
      have haudio := hwired.bridge
      rw [hbridge] at haudio hp
      dsimp only at hp
      rw [hwired.live haudio.symm] at hp
      exact absurd hp (Finset.notMem_empty p)
  | some t =>
      rw [hbridge] at hp
      obtain hover | hholds := h.holds t hbridge
      · rw [hruns t hbridge] at hover
        cases hover
      · exact hholds p hp

/-- In every run what has been heard is right. -/
theorem run_heard (b : Boot) (acts : List (ServicesEnv × ServicesInput)) (k : ℕ) :
    (Run.after step b.services acts k).Wired ∧ (Run.after step b.services acts k).Heard := by
  have hmove : ∀ (env : ServicesEnv) (m m' : Services), Move env (fun _ => True) m m' →
      m.Wired ∧ m.Heard → m'.Wired ∧ m'.Heard :=
    fun env m m' hmove h => ⟨Wired.move hmove h.1, h.2.move hmove h.1⟩
  refine run_invariant b (P := fun m => m.Wired ∧ m.Heard) ⟨?_, nofun, nofun⟩ hmove acts k
  exact built_wired b

/-- **Live peers have sessions.** In every state of every run, as long as the bridge's task runs, each
peer the loop will count as live once it has heard the events on their way has a session. A task that has
died is replaced by the next tick, and then the same holds. -/
theorem live_peers_have_sessions (b : Boot) (acts : List (ServicesEnv × ServicesInput)) (k : ℕ) :
    (¬(Run.after step b.services acts k).BridgeRuns ∨
      ∀ p ∈ (Run.after step b.services acts k).believed,
        (Run.after step b.services acts k).hasSession p = true) ∧
    ∀ env, ∀ p ∈ ((Run.after step b.services acts k).tick env).believed,
      ((Run.after step b.services acts k).tick env).hasSession p = true := by
  obtain ⟨hwired, hheard⟩ := run_heard b acts k
  refine ⟨?_, fun env => ?_⟩
  · by_cases hruns : (Run.after step b.services acts k).BridgeRuns
    · exact .inr (hheard.hasSession hwired hruns)
    · exact .inl hruns
  · have hafter : ((Run.after step b.services acts k).tick env).Wired ∧
        ((Run.after step b.services acts k).tick env).Heard :=
      Moves.invariant (T := fun _ => True) (P := fun m => m.Wired ∧ m.Heard) Moves.tick
        (fun m m' hmove h => ⟨Wired.move hmove h.1, h.2.move hmove h.1⟩) ⟨hwired, hheard⟩
    exact hafter.2.hasSession hafter.1 (bridgeRuns_tick env hwired)

end Services

end Synbad
