import Synbad.Supervisor.Services
import Mathlib.Logic.Relation

/-! # What the audio subsystem does, one change at a time

Every step of the network services is a sequence of small moves: the subsystem comes up or goes down,
a peer is dialled, a dial moves on, an outcome or an event is taken, the bridge runs. What every move
keeps every run keeps (`run_invariant`).

`Move` is a relation with one constructor for each change, its guards included; `Moves.stepRunning`
shows that each branch of the step function is a sequence of them, so an invariant of the audio
subsystem is shown by cases on `Move` and never by unfolding the step. The first constructor, `aside`,
stands for everything that leaves the subsystem alone, so the other services can change without
touching a proof. Trust may change in a step, and what it may become is a parameter of the relation:
an invariant for a time during which a peer is not trusted restricts it.

The second part is what a move can do in detail: the gates a dial has to pass (`dialAudioOne_cases`),
and how a dial goes on (`stepDial_cases`). -/

namespace Synbad

open Audio

/-- The peer that an event which is broadcast complains about, if it is an audio error. -/
def ServicesEvent.complaint : ServicesEvent → Option String
  | .audioError peer _ => peer
  | _ => none

namespace Services

variable {env : ServicesEnv} {n n' n'' : Services} {T : TrustedPeerStore → Prop}

/-- Every peer in the map is entered under its own machine id. -/
def PeersKeyed (peers : String → Option DiscoveredPeer) : Prop :=
  ∀ id peer, peers id = some peer → peer.machineId = id

/-- **A move.** `T` is what the trust store may become. -/
inductive Move (env : ServicesEnv) (T : TrustedPeerStore → Prop) (n : Services) : Services → Prop
  /-- Nothing of the audio subsystem changes; anything else may. -/
  | aside (config : Config) (headHash : String) (desiredRunning : Bool)
      (peers : String → Option DiscoveredPeer) (keyed : PeersKeyed n.peers → PeersKeyed peers)
      (advertiser : Option Advertiser) (browser : Bool) (discoveryRx : Option Bool)
      (pairingDeps : String) (pairingListener : Option (ListenerTask String))
      (incomingPairings : Bool) (syncListener : Option (ListenerTask Unit))
      (listenerPorts : ℕ × ℕ × ℕ) (halted : Bool) :
      Move env T n
        { n with
          config := config
          headHash := headHash
          desiredRunning := desiredRunning
          peers := peers
          advertiser := advertiser
          browser := browser
          discoveryRx := discoveryRx
          pairingDeps := pairingDeps
          pairingListener := pairingListener
          incomingPairings := incomingPairings
          syncListener := syncListener
          listenerPorts := listenerPorts
          halted := halted }
  | trust (store : TrustedPeerStore) (allowed : T store) : Move env T n { n with trust := store }
  | emit (e : ServicesEvent) (quiet : e.complaint = none) : Move env T n (n.emit e)
  | bringUp (listener : Option (ListenerTask ℕ)) (down : n.audio = none)
      (deps : ∀ l ∈ listener, l.deps = n.bridges) : Move env T n (n.bringUp listener)
  | teardown : Move env T n (n.teardownAudioSubsystem env)
  | dial (peer : DiscoveredPeer) (id : String) (visible : n.peers id = some peer) :
      Move env T n (n.dialAudioOne env peer)
  | gc : Move env T n n.gcAudioTasks
  /-- Peers are no longer counted as live, or are tried again at once. -/
  | forget (live : Finset String) (sub : live ⊆ n.audioLive) (backoff : String → Option AudioBackoff)
      (earlier : ∀ p, n.audioBackoff p = none → backoff p = none) :
      Move env T n { n with audioLive := live, audioBackoff := backoff }
  | dialDone : Move env T n (n.takeDialDone env)
  | audioEvent : Move env T n (n.takeAudioEvent env)
  | send (c : AudioCommand) : Move env T n (n.trySend c)
  | stepDial (i : ℕ) (move : DialMove) : Move env T n (n.stepDial i move)
  | listener (l : Option (ListenerTask ℕ))
      (bound : ∀ t ∈ l, n.audioDialDeps = some t.deps ∨ ∃ t' ∈ n.audioListener, t'.deps = t.deps) :
      Move env T n { n with audioListener := l, signals := [] }
  | accept : Move env T n n.accept
  | stepSignal (i : ℕ) (move : SignalMove) : Move env T n (n.stepSignal i move)
  | bridge (reap : Bool) : Move env T n (n.stepBridge reap)
  | driver (peer : String) (report : DriverReport) : Move env T n (n.stepDriver peer report)
  | bridgeDies :
      Move env T n
        { n with
          bridge := n.bridge.map fun t =>
            { t with bridge := { t.bridge with sessions := [], exited := true } } }

/-- Moves one after the other, any number of them. -/
abbrev Moves (env : ServicesEnv) (T : TrustedPeerStore → Prop) : Services → Services → Prop :=
  Relation.ReflTransGen (Move env T)

/-! ## Steps are moves -/

/-- Advertising another port is moves of the subsystem, and none of its own. -/
theorem Moves.setAudioPort (macos : Bool) (answers : MdnsAnswers) (port : ℕ) :
    Moves env T n (n.setAudioPort macos answers port) :=
  .single (.aside _ _ _ _ id _ _ _ _ _ _ _ _ _)

/-- Dialing a peer changes nothing of who has been found. -/
@[simp] theorem peers_dialAudioOne (env : ServicesEnv) (n : Services) (peer : DiscoveredPeer) :
    (n.dialAudioOne env peer).peers = n.peers := by
  unfold dialAudioOne
  split
  · rfl
  · split_ifs <;> rfl

/-- Dialing some peers is as many moves. -/
theorem Moves.dials (peers : List DiscoveredPeer)
    (visible : ∀ peer ∈ peers, ∃ id, n.peers id = some peer) :
    Moves env T n (peers.foldl (dialAudioOne env) n) := by
  induction peers generalizing n with
  | nil => exact .refl
  | cons peer peers ih =>
      obtain ⟨id, hid⟩ := visible peer (List.mem_cons_self ..)
      refine .head (.dial peer id hid) (ih fun p hp => ?_)
      rw [peers_dialAudioOne]
      exact visible p (List.mem_cons_of_mem _ hp)

/-- Dialing who is due is moves. -/
theorem Moves.reconcileAudioSessions : Moves env T n (n.reconcileAudioSessions env) := by
  unfold Services.reconcileAudioSessions
  split_ifs with hdeps
  · exact .refl
  · refine .dials _ fun peer hpeer => ?_
    obtain ⟨id, -, hid⟩ := List.mem_filterMap.mp hpeer
    exact ⟨id, hid⟩

/-- Bringing the subsystem up is moves: it comes up, and whoever is due is dialled. -/
theorem Moves.ensureAudioSubsystem : Moves env T n (n.ensureAudioSubsystem env) := by
  unfold Services.ensureAudioSubsystem
  split_ifs with haudio henabled
  · exact .refl
  · exact .refl
  · have hup : Move env T n (n.bringUp (n.bringUpListener env)) := by
      refine .bringUp _ (by simpa using haudio) fun l hl => ?_
      unfold bringUpListener at hl
      split at hl
      · cases hl
        rfl
      · cases hl
    refine .head hup (.trans ?_ Moves.reconcileAudioSessions)
    split
    · exact Moves.setAudioPort ..
    · exact .refl

/-- Putting the switch right is moves. -/
theorem Moves.reconcileAudioSubsystem : Moves env T n (n.reconcileAudioSubsystem env) := by
  unfold Services.reconcileAudioSubsystem
  split_ifs
  · exact .single .teardown
  · exact .refl
  · exact Moves.ensureAudioSubsystem

/-- A peer that is entered under its own id keeps the map keyed. -/
theorem PeersKeyed.insert {peers : String → Option DiscoveredPeer} (h : PeersKeyed peers)
    (peer : DiscoveredPeer) : PeersKeyed (mapInsert peers peer.machineId peer) := by
  intro id p hp
  by_cases hid : id = peer.machineId
  · subst hid
    rw [mapInsert, Function.update_self] at hp
    exact congrArg _ (Option.some.inj hp).symm
  · rw [mapInsert, Function.update_of_ne hid] at hp
    exact h id p hp

/-- A peer that is taken out keeps the map keyed. -/
theorem PeersKeyed.remove {peers : String → Option DiscoveredPeer} (h : PeersKeyed peers)
    (machineId : String) : PeersKeyed (mapRemove peers machineId) := by
  intro id p hp
  by_cases hid : id = machineId
  · subst hid
    rw [mapRemove, Function.update_self] at hp
    cases hp
  · rw [mapRemove, Function.update_of_ne hid] at hp
    exact h id p hp

/-- Writing in the map of peers is a move aside. -/
theorem Moves.peers (peers : String → Option DiscoveredPeer)
    (keyed : PeersKeyed n.peers → PeersKeyed peers) : Moves env T n { n with peers := peers } :=
  .single (.aside _ _ _ _ keyed _ _ _ _ _ _ _ _ _)

/-- A peer that is found is moves: it is entered, and dialled if it is due. -/
theorem Moves.found (peer : DiscoveredPeer) : Moves env T n (n.found env peer) := by
  unfold Services.found
  refine Relation.ReflTransGen.trans (Moves.peers _ fun keyed => keyed.insert peer) ?_
  dsimp only
  split
  · exact .refl
  · exact .head (.emit _ rfl) Moves.reconcileAudioSessions

/-- An entry that is removed from a map is gone, and an entry that was not there is not put there. -/
theorem mapRemove_none {m : String → Option AudioBackoff} {p : String} (machineId : String)
    (h : m p = none) : mapRemove m machineId p = none := by
  by_cases hp : p = machineId
  · rw [hp, mapRemove, Function.update_self]
  · rwa [mapRemove, Function.update_of_ne hp]

/-- A peer that is lost is moves: it is taken out, and its session is closed. -/
theorem Moves.lost (machineId : String) : Moves env T n (n.lost machineId) := by
  unfold Services.lost
  split
  · exact .refl
  · refine Relation.ReflTransGen.trans (Moves.peers _ fun keyed => keyed.remove machineId) ?_
    refine .head (.forget _ (Finset.erase_subset ..) _ fun p => ?_)
      (.head (.emit (.peerLost machineId) rfl) (.single (.send _)))
    exact mapRemove_none machineId

/-! ### The tick -/

/-- Putting the name right is a move aside. -/
theorem Moves.reconcileName : Moves env T n n.reconcileName := by
  unfold Services.reconcileName
  split
  · exact .single (.aside _ _ _ _ id _ _ _ _ _ _ _ _ _)
  · exact .refl

/-- Taking down a browser that has ended is a move aside. -/
theorem Moves.retireBrowser : Moves env T n n.retireBrowser := by
  unfold Services.retireBrowser
  split
  · exact .single (.aside _ _ _ _ id _ _ _ _ _ _ _ _ _)
  · exact .refl

/-- Starting discovery is a move aside. -/
theorem Moves.startDiscovery : Moves env T n (n.startDiscovery env) := by
  unfold Services.startDiscovery
  split
  · exact .refl
  · split
    · exact .refl
    · exact .single (.aside _ _ _ _ id _ _ _ _ _ _ _ _ _)

/-- Starting discovery again is a move aside. -/
theorem Moves.reopenDiscovery : Moves env T n (n.reopenDiscovery env) := by
  unfold Services.reopenDiscovery
  split
  · exact .refl
  · exact Moves.startDiscovery

/-- Taking down a pairing listener is a move aside. -/
theorem Moves.retirePairing : Moves env T n n.retirePairing := by
  unfold Services.retirePairing
  split
  · exact .single (.aside _ _ _ _ id _ _ _ _ _ _ _ _ _)
  · exact .refl

/-- Opening a pairing listener again is a move aside. -/
theorem Moves.reopenPairing : Moves env T n (n.reopenPairing env) := by
  unfold Services.reopenPairing
  split
  · exact .refl
  · split
    · exact .refl
    · exact .single (.aside _ _ _ _ id _ _ _ _ _ _ _ _ _)

/-- Taking down a sync listener is a move aside. -/
theorem Moves.retireSync : Moves env T n n.retireSync := by
  unfold Services.retireSync
  split
  · exact .single (.aside _ _ _ _ id _ _ _ _ _ _ _ _ _)
  · exact .refl

/-- Opening a sync listener again is a move aside. -/
theorem Moves.reopenSync : Moves env T n (n.reopenSync env) := by
  unfold Services.reopenSync
  split
  · exact .refl
  · split
    · exact .refl
    · exact .single (.aside _ _ _ _ id _ _ _ _ _ _ _ _ _)

/-- Taking down a bridge that has died is moves. -/
theorem Moves.retireAudio : Moves env T n (n.retireAudio env) := by
  unfold Services.retireAudio
  split
  · exact .single .teardown
  · exact .refl

/-- Bringing the subsystem up again is moves. -/
theorem Moves.reopenAudio : Moves env T n (n.reopenAudio env) := by
  have hsend : Move env T (n.reconcileAudioSubsystem env)
      ((n.reconcileAudioSubsystem env).trySend (.reconfigure n.config.audio)) := .send _
  refine Moves.reconcileAudioSubsystem.trans (.head hsend (.single ?_))
  exact .aside _ _ _ _ id _ _ _ _ _ _ _ _ _

/-- Taking down an audio listener that has ended is moves. -/
theorem Moves.retireAudioListener : Moves env T n n.retireAudioListener := by
  unfold Services.retireAudioListener
  split
  · exact .single (.listener none fun t ht => by cases ht)
  · exact .refl

/-- Opening an audio listener again is moves. -/
theorem Moves.reopenAudioListener : Moves env T n (n.reopenAudioListener env) := by
  unfold Services.reopenAudioListener
  split
  · exact .refl
  · split
    · next bridge hdeps _ =>
        refine .single (.listener _ fun t ht => .inl ?_)
        cases ht
        exact hdeps
    · exact .refl

/-- Putting the network services right is moves, one service after the other. -/
theorem Moves.reconcileNetworkServices : Moves env T n (n.reconcileNetworkServices env) := by
  unfold Services.reconcileNetworkServices
  have hname : Moves env T n n.reconcileName := Moves.reconcileName
  refine (hname.trans Moves.retireBrowser).trans (Moves.reopenDiscovery.trans ?_)
  refine Moves.retirePairing.trans (Moves.reopenPairing.trans ?_)
  refine Moves.retireSync.trans (Moves.reopenSync.trans ?_)
  refine Moves.retireAudio.trans (Moves.reopenAudio.trans ?_)
  refine Moves.retireAudioListener.trans (Moves.reopenAudioListener.trans (.single ?_))
  exact .aside _ _ _ _ id _ _ _ _ _ _ _ _ _

/-- A tick is moves. -/
theorem Moves.tick : Moves env T n (n.tick env) :=
  Moves.reconcileNetworkServices.trans (.head .gc Moves.reconcileAudioSessions)

/-! ### Requests and the rest -/

/-- A new audio configuration is moves: it is taken over, and the subsystem follows. -/
theorem Moves.updateAudioConfig (config : Config) (headHash : String) :
    Moves env T n (n.updateAudioConfig env config headHash) := by
  unfold Services.updateAudioConfig
  extract_lets old new n₁ n₂ n₃ n₄
  have h₁ : Moves env T n n₁ := .single (.aside _ _ _ _ id _ _ _ _ _ _ _ _ _)
  have h₂ : Moves env T n₁ n₂ := by
    simp only [n₂]
    split
    · exact Moves.reconcileAudioSubsystem
    · exact .refl
  have h₃ : Moves env T n₂ n₃ := .single (.send _)
  have h₄ : Moves env T n₃ n₄ := by
    simp only [n₄]
    split
    · refine .single (.forget _ (Finset.filter_subset ..) _ fun p hp => ?_)
      split
      · rfl
      · exact hp
    · exact .refl
  exact (h₁.trans h₂).trans (h₃.trans (h₄.trans Moves.reconcileAudioSessions))

/-- A command that is sent writes no trust. -/
theorem trust_trySend (n : Services) (c : AudioCommand) : (n.trySend c).trust = n.trust := by
  unfold trySend
  split
  · split_ifs <;> rfl
  · rfl

/-- A revocation writes the trust store as `remove` leaves it. -/
theorem trust_revokeTrust (n : Services) (machineId : String) (fails : Option SaveFault) :
    (n.revokeTrust machineId fails).trust = (n.trust.remove machineId fails).1 := by
  unfold Services.revokeTrust
  dsimp only
  split
  · exact trust_trySend ..
  · rfl

/-- A revocation is moves: the store is written, and the peer's session is closed. -/
theorem Moves.revokeTrust (machineId : String) (fails : Option SaveFault)
    (allowed : T (n.revokeTrust machineId fails).trust) :
    Moves env T n (n.revokeTrust machineId fails) := by
  rw [trust_revokeTrust] at allowed
  unfold Services.revokeTrust
  refine .head (.trust _ allowed) ?_
  dsimp only
  split
  · exact .head (.emit (.trustRevoked machineId) rfl) (.single (.send _))
  · exact .refl

/-- A listener that ends is bound to the same bridge. -/
theorem deps_endListener {l : Option (ListenerTask ℕ)} :
    ∀ t ∈ endListener l, ∃ t' ∈ l, t'.deps = t.deps := by
  intro t ht
  obtain ⟨t', ht', rfl⟩ := Option.map_eq_some_iff.mp ht
  exact ⟨t', ht', rfl⟩

/-- **A step is a sequence of moves**, whichever branch of the step function it takes. -/
theorem Moves.stepRunning (input : ServicesInput) (allowed : T (n.stepRunning env input).trust) :
    Moves env T n (n.stepRunning env input) := by
  -- every input is a few moves one after the other, and most are one
  cases input with
  | start =>
      have hwant : Move env T n { n with desiredRunning := true } :=
        .aside _ _ _ _ id _ _ _ _ _ _ _ _ _
      exact .head hwant Moves.reconcileAudioSubsystem
  | stop =>
      have hwant : Move env T n { n with desiredRunning := false } :=
        .aside _ _ _ _ id _ _ _ _ _ _ _ _ _
      exact .head hwant Moves.reconcileAudioSubsystem
  | setAudioConfig config headHash => exact Moves.updateAudioConfig config headHash
  | configChanged config headHash => exact .single (.aside _ _ _ _ id _ _ _ _ _ _ _ _ _)
  | revokeTrust machineId fails => exact Moves.revokeTrust machineId fails allowed
  | pair peer fails => exact .single (.trust _ allowed)
  | found peer => exact Moves.found peer
  | lost machineId => exact Moves.lost machineId
  | tick => exact Moves.tick
  | dialDone => exact .single .dialDone
  | audioEvent => exact .single .audioEvent
  | dial i move => exact .single (.stepDial i move)
  | accept => exact .single .accept
  | signal i move => exact .single (.stepSignal i move)
  | bridge reap => exact .single (.bridge reap)
  | driver peer report => exact .single (.driver peer report)
  | pairingEnds => exact .single (.aside _ _ _ _ id _ _ _ _ _ _ _ _ _)
  | syncEnds => exact .single (.aside _ _ _ _ id _ _ _ _ _ _ _ _ _)
  | audioEnds => exact .single (.listener _ fun t ht => .inr (deps_endListener t ht))
  | bridgeDies => exact .single .bridgeDies
  | browserEnds => exact .single (.aside _ _ _ _ id _ _ _ _ _ _ _ _ _)
  | shutdown =>
      refine .head .teardown (.single ?_)
      exact .aside _ _ _ _ id _ _ _ _ _ _ _ _ _

/-- **Every step is moves**, if what it writes into the trust store is allowed. -/
theorem Moves.step (input : ServicesEnv × ServicesInput) (allowed : T (n.step input).trust) :
    Moves input.1 T n (n.step input) := by
  unfold Services.step at allowed ⊢
  split_ifs at allowed ⊢ with hhalted
  · exact .refl
  · exact Moves.stepRunning input.2 allowed

/-- What every move keeps a sequence of moves keeps. -/
theorem Moves.invariant {P : Services → Prop} (h : Moves env T n n')
    (next : ∀ m m', Move env T m m' → P m → P m') (start : P n) : P n' := by
  induction h with
  | refl => exact start
  | tail _ last ih => exact next _ _ last ih

/-! ## What a move can do -/

/-- **The gates of a dial**: what a peer has to pass for the loop to dial it, with the bridge the dial
is given. -/
structure Gates (env : ServicesEnv) (n : Services) (peer : DiscoveredPeer) (bridge : ℕ) : Prop where
  deps : n.audioDialDeps = some bridge
  port : peer.audioPort ≠ 0
  active : peerAudioActive n.config.audio peer.machineId = true
  larger : n.machineId < peer.machineId
  notLive : peer.machineId ∉ n.audioLive
  notInflight : peer.machineId ∉ n.audioInflight
  due : ∀ b ∈ n.audioBackoff peer.machineId, b.nextAttempt ≤ env.now
  unlocked : env.trustBusy peer.machineId = false
  trusted : n.trust.contains peer.machineId = true

/-- A dial to the peer has been spawned, and the peer counts as in flight. -/
def dialled (n : Services) (peer : DiscoveredPeer) (bridge : ℕ) : Services :=
  { n with
    audioInflight := insert peer.machineId n.audioInflight
    audioTasks := n.audioTasks ++ [⟨peer, bridge, .spawned⟩] }

/-- **A dial passes every gate, or there is none.** -/
theorem dialAudioOne_cases (env : ServicesEnv) (n : Services) (peer : DiscoveredPeer) :
    n.dialAudioOne env peer = n ∨
      ∃ bridge, Gates env n peer bridge ∧
        n.dialAudioOne env peer = (n.dialled peer bridge).gcAudioTasks := by
  unfold dialAudioOne
  split
  · exact .inl rfl
  · next bridge hdeps =>
      split_ifs with hport hactive hlarger hlive hinflight hdue hlock htrusted
      any_goals exact .inl rfl
      refine .inr ⟨bridge, ⟨hdeps, hport, by simpa using hactive, not_le.mp hlarger, hlive, hinflight,
        fun b hb => ?_, by simpa using hlock, htrusted⟩, rfl⟩
      simpa [Option.mem_def.mp hb] using hdue

/-- A dial that passes every gate is made, whatever the loop is at. -/
theorem Gates.dialAudioOne {peer : DiscoveredPeer} {bridge : ℕ} (h : Gates env n peer bridge) :
    n.dialAudioOne env peer = (n.dialled peer bridge).gcAudioTasks := by
  have hdue : ((n.audioBackoff peer.machineId).any fun b => env.now < b.nextAttempt) = false := by
    cases hb : n.audioBackoff peer.machineId with
    | none => rfl
    | some b => simpa using h.due b hb
  unfold Services.dialAudioOne
  split
  · next hnone =>
      rw [h.deps] at hnone
      cases hnone
  · next bridge' hdeps =>
      obtain rfl : bridge = bridge' := Option.some.inj (h.deps.symm.trans hdeps)
      rw [if_neg h.port, if_neg (by simp [h.active]), if_neg (not_le.mpr h.larger), if_neg h.notLive,
        if_neg h.notInflight, if_neg (by simp [hdue]), if_neg (by simp [h.unlocked]), if_pos h.trusted]
      rfl

/-- The bridge goes on under its number, in another state. -/
def withBridge (n : Services) (t : BridgeTask) : Services := { n with bridge := some t }

/-- A command is sent to a bridge that is there, or to nobody. -/
theorem trySend_cases (n : Services) (c : AudioCommand) :
    n.trySend c = n ∨ ∃ t, n.bridge = some t ∧ n.audio.isSome ∧
      n.trySend c = n.withBridge { t with commands := t.commands ++ [c] } := by
  unfold trySend
  split
  · next k t hk ht =>
      split_ifs
      · exact .inr ⟨t, ht, by rw [hk]; rfl, rfl⟩
      · exact .inl rfl
  · exact .inl rfl

/-- The dial with this number goes on, at another stage. -/
def withDial (n : Services) (i : ℕ) (d : Dial) : Services :=
  { n with audioTasks := n.audioTasks.set i d }

/-- **A dial moves on, hands its stream over, or reports.** -/
theorem stepDial_cases (n : Services) (i : ℕ) (move : DialMove) :
    n.stepDial i move = n ∨ ∃ d, n.audioTasks[i]? = some d ∧
      (n.stepDial i move = n.withDial i (d.advance n.hex n.trust move) ∨
        n.stepDial i move = n.withDial i (d.failed .bridgeGone) ∧
          (∃ trusted, d.stage = .handingOff trusted) ∨
        (∃ t trusted opening, n.bridge = some t ∧ t.number = d.bridge ∧
          d.stage = .handingOff trusted ∧
          n.stepDial i move =
            (n.withBridge { t with
              commands := t.commands ++ [.incomingSignal trusted.machineId opening] }).withDial i
                { d with stage := .reporting (.ok d.peer.machineId) }) ∨
        ∃ outcome, d.stage = .reporting outcome ∧
          n.stepDial i move =
            { n.withDial i { d with stage := .finished } with
              audioDialDone := n.audioDialDone ++ [outcome] }) := by
  unfold stepDial
  split
  · exact .inl rfl
  · next d hd =>
      split
      · next opening trusted hstage =>
          split
          · exact .inr ⟨d, hd, .inr (.inl ⟨rfl, trusted, hstage⟩)⟩
          · next t ht =>
              split_ifs with hgone hroom
              · exact .inr ⟨d, hd, .inr (.inl ⟨rfl, trusted, hstage⟩)⟩
              · have hnumber : t.number = d.bridge := not_not.mp fun h => hgone (.inr h)
                exact .inr ⟨d, hd, .inr (.inr (.inl ⟨t, trusted, opening, ht, hnumber, hstage, rfl⟩))⟩
              · exact .inl rfl
      · next outcome hstage =>
          split_ifs with hroom
          · exact .inr ⟨d, hd, .inr (.inr (.inr ⟨outcome, hstage, rfl⟩))⟩
          · exact .inl rfl
      · exact .inr ⟨d, hd, .inl rfl⟩

/-- An outcome is taken off the channel of the dials, or there is none. -/
theorem takeDialDone_cases (env : ServicesEnv) (n : Services) :
    n.takeDialDone env = n ∨ ∃ outcome rest backoff, n.audioDialDone = outcome :: rest ∧
      n.takeDialDone env =
        { n with
          audioDialDone := rest
          audioInflight := n.audioInflight.erase outcome.peer
          audioBackoff := backoff } := by
  unfold takeDialDone
  split
  · exact .inl rfl
  · next outcome rest hdone =>
      cases outcome with
      | ok peer => exact .inr ⟨.ok peer, rest, _, hdone, rfl⟩
      | err peer e => exact .inr ⟨.err peer e, rest, _, hdone, rfl⟩

/-- The peers taken for live, once an event has been heard. -/
def hearLive (live : Finset String) : AudioEvent → Finset String
  | .peerStatus status =>
      if status.lastError.isSome then live.erase status.machineId else insert status.machineId live
  | .error (some peer) _ => live.erase peer
  | .error none _ => live
  | .sessionClosed peer => live.erase peer

/-- The dials thought to be under way, once an event has been heard. -/
def hearInflight (inflight : Finset String) : AudioEvent → Finset String
  | .error (some peer) _ => inflight.erase peer
  | _ => inflight

/-- The peer an event of the bridge complains about. -/
def complaintOf : AudioEvent → Option String
  | .error peer _ => peer
  | _ => none

/-- An event is taken off the bridge's channel and told, or there is none. -/
theorem takeAudioEvent_cases (env : ServicesEnv) (n : Services) :
    n.takeAudioEvent env = n ∨ ∃ t e rest backoff told,
      n.audio.isSome ∧ n.bridge = some t ∧ t.events = e :: rest ∧
      ServicesEvent.complaint told = complaintOf e ∧
      n.takeAudioEvent env =
        { n.withBridge { t with events := rest } with
          audioLive := hearLive n.audioLive e
          audioInflight := hearInflight n.audioInflight e
          audioBackoff := backoff
          events := n.events ++ [told] } := by
  unfold takeAudioEvent
  split
  · next k t hk ht =>
      split
      · exact .inl rfl
      -- what is told is what the bridge has told, and three of the books hear of it
      · next e rest hevents =>
          refine .inr ?_
          have haudio : n.audio.isSome := by rw [hk]; rfl
          cases e with
          | peerStatus status =>
              refine ⟨t, _, rest, if status.lastError.isSome then n.audioBackoff
                else mapRemove n.audioBackoff status.machineId, .audioPeerStatus status, haudio, ht,
                hevents, rfl, ?_⟩
              unfold handleAudioEvent hearLive
              dsimp only
              split <;> rfl
          | error peer message =>
              cases peer with
              | none =>
                  exact ⟨t, _, rest, _, .audioError none message, haudio, ht, hevents, rfl, rfl⟩
              | some peer =>
                  exact ⟨t, _, rest, _, .audioError (some peer) message, haudio, ht, hevents, rfl, rfl⟩
          | sessionClosed peer =>
              exact ⟨t, _, rest, _, .audioPeerRemoved peer, haudio, ht, hevents, rfl, rfl⟩
  · exact .inl rfl

/-- The connections being served and the bridge have changed, and nothing else has. -/
def withTasks (n : Services) (signals : List SignalStage) (bridge : Option BridgeTask) : Services :=
  { n with signals := signals, bridge := bridge }

/-- **The other tasks touch nothing else**: accepting a connection changes the connections and the
bridge at most. -/
theorem accept_eq (n : Services) : ∃ signals bridge, n.accept = n.withTasks signals bridge := by
  unfold accept
  split
  · exact ⟨n.signals, n.bridge, rfl⟩
  · dsimp only
    split
    · exact ⟨_, n.bridge, rfl⟩
    · exact ⟨n.signals, n.bridge, rfl⟩

/-- A step of an accepted connection changes only its task and the bridge. -/
theorem stepSignal_eq (n : Services) (i : ℕ) (move : SignalMove) :
    ∃ signals bridge, n.stepSignal i move = n.withTasks signals bridge := by
  unfold stepSignal
  split
  · exact ⟨n.signals, n.bridge, rfl⟩
  · split
    · split
      · exact ⟨_, n.bridge, rfl⟩
      · split_ifs
        · exact ⟨_, n.bridge, rfl⟩
        · exact ⟨_, _, rfl⟩
        · exact ⟨n.signals, n.bridge, rfl⟩
    · exact ⟨_, n.bridge, rfl⟩

/-- An iteration of the bridge changes only the bridge. -/
theorem stepBridge_eq (n : Services) (reap : Bool) :
    ∃ bridge, n.stepBridge reap = n.withTasks n.signals bridge := by
  unfold stepBridge
  split
  · exact ⟨n.bridge, rfl⟩
  · split
    · exact ⟨_, rfl⟩
    · exact ⟨_, rfl⟩
    · exact ⟨n.bridge, rfl⟩

/-- What a driver reports changes only the bridge. -/
theorem stepDriver_eq (n : Services) (peer : String) (report : DriverReport) :
    ∃ bridge, n.stepDriver peer report = n.withTasks n.signals bridge := by
  unfold stepDriver
  split
  · exact ⟨n.bridge, rfl⟩
  · split
    · exact ⟨n.bridge, rfl⟩
    · split_ifs
      · exact ⟨n.bridge, rfl⟩
      · exact ⟨_, rfl⟩

/-! ## Runs -/

/-- A daemon that comes up is moves. -/
theorem Moves.new {hex : HexCodec} {machineId fingerprint : String} {config : Config} {headHash : String}
    {trust : TrustedPeerStore} {userStopped : Bool} :
    Moves env T (built hex env machineId fingerprint config headHash trust userStopped)
      (new hex env machineId fingerprint config headHash trust userStopped) :=
  Moves.startDiscovery.trans Moves.reconcileAudioSubsystem

/-- **A run of the supervisor's network services**: a machine as it comes up, and any steps after
that. -/
structure Boot where
  hex : HexCodec
  env : ServicesEnv
  machineId : String
  fingerprint : String
  config : Config
  headHash : String
  trust : TrustedPeerStore
  userStopped : Bool

/-- The network services of the machine as they come up at its start. -/
def Boot.services (b : Boot) : Services :=
  new b.hex b.env b.machineId b.fingerprint b.config b.headHash b.trust b.userStopped

/-- **What every move keeps holds in every state of every run**, if it holds as the supervisor is
built. -/
theorem run_invariant {P : Services → Prop} (b : Boot)
    (start : P (built b.hex b.env b.machineId b.fingerprint b.config b.headHash b.trust b.userStopped))
    (next : ∀ env m m', Move env (fun _ => True) m m' → P m → P m')
    (acts : List (ServicesEnv × ServicesInput)) (k : ℕ) :
    P (Run.after step b.services acts k) := by
  refine Run.invariant (Moves.invariant (T := fun _ => True) Moves.new (next b.env) start) ?_ k
  intro i input _ h
  exact Moves.invariant (Moves.step input trivial) (next input.1) h

end Services

end Synbad
