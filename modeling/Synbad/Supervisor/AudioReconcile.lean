import Synbad.Supervisor.AudioLife

/-! # Audio follows the run state

The subsystem is up exactly while Synbad is to run and audio is on: a step that changes either puts it
right, and what is changed behind the loop's back the next tick puts right. After a tick every peer
that should have a session has one or is being dialled.

`Asserted` is the switch in its right position, and `asserted_reconcileAudioSubsystem` says that
reconciling puts it there from any state. For a step there are three cases (`stepRunning_switch`): the
switch is put right, nothing it depends on has moved, or the loop ends. The document can also change
by another way than a request for audio, through a merge or an edit of the file; then the switch is
`Behind` until something puts it right. `audio_follows_run_state` says of every run that a stopped
Synbad never has audio, and that the switch is right except for such a stretch.

The second part goes through the loop over the peers: whoever is `Due` a session is in flight or live
after it (`tick_leaves_nobody_out`). -/

namespace Synbad

open Audio

namespace Services

variable {env : ServicesEnv} {n n' : Services}

/-! ## The switch -/

/-- The subsystem is up exactly when Synbad is to run and audio is on. -/
def Asserted (n : Services) : Prop := n.audio.isSome = (n.desiredRunning && n.config.audio.enabled)

/-- Everything the switch depends on is the same: the subsystem, the wish to run, the document and
whether the loop goes on. -/
structure SameSwitch (n n' : Services) : Prop where
  audio : n'.audio = n.audio
  desiredRunning : n'.desiredRunning = n.desiredRunning
  config : n'.config = n.config
  halted : n'.halted = n.halted

namespace SameSwitch

/-- What does nothing leaves the switch alone. -/
theorem refl (n : Services) : n.SameSwitch n := ⟨rfl, rfl, rfl, rfl⟩

/-- Two things that leave the switch alone leave it alone together. -/
theorem trans {n₁ n₂ n₃ : Services} (h : n₁.SameSwitch n₂) (h' : n₂.SameSwitch n₃) : n₁.SameSwitch n₃ :=
  ⟨h'.audio.trans h.audio, h'.desiredRunning.trans h.desiredRunning, h'.config.trans h.config,
    h'.halted.trans h.halted⟩

/-- The switch is right after something that leaves it alone exactly if it was before. -/
theorem asserted (h : n.SameSwitch n') : n'.Asserted ↔ n.Asserted := by
  unfold Asserted
  rw [h.audio, h.desiredRunning, h.config]

/-- Dialing a peer leaves the switch alone. -/
theorem dialAudioOne (env : ServicesEnv) (n : Services) (peer : DiscoveredPeer) :
    n.SameSwitch (n.dialAudioOne env peer) := by
  obtain heq | ⟨bridge, -, heq⟩ := dialAudioOne_cases env n peer
  · rw [heq]
    exact .refl n
  · rw [heq]
    exact ⟨rfl, rfl, rfl, rfl⟩

/-- Dialing who is due leaves the switch alone. -/
theorem reconcileAudioSessions (env : ServicesEnv) (n : Services) :
    n.SameSwitch (n.reconcileAudioSessions env) := by
  have hfold : ∀ (peers : List DiscoveredPeer) (m : Services), n.SameSwitch m →
      n.SameSwitch (peers.foldl (Services.dialAudioOne env) m) := by
    intro peers
    induction peers with
    | nil => exact fun _ h => h
    | cons peer peers ih => exact fun m h => ih _ (h.trans (.dialAudioOne env m peer))
  unfold Services.reconcileAudioSessions
  split
  · exact .refl n
  · exact hfold _ n (.refl n)

/-- Sending a command leaves the switch alone. -/
theorem trySend (n : Services) (c : AudioCommand) : n.SameSwitch (n.trySend c) := by
  obtain heq | ⟨t, -, -, heq⟩ := trySend_cases n c
  · rw [heq]
    exact .refl n
  · rw [heq]
    exact ⟨rfl, rfl, rfl, rfl⟩

end SameSwitch

/-- **Reconciling puts the switch right**, and changes nothing it depends on. -/
theorem asserted_reconcileAudioSubsystem (env : ServicesEnv) (n : Services) :
    (n.reconcileAudioSubsystem env).Asserted ∧
      (n.reconcileAudioSubsystem env).desiredRunning = n.desiredRunning ∧
      (n.reconcileAudioSubsystem env).config = n.config ∧
      (n.reconcileAudioSubsystem env).halted = n.halted := by
  unfold reconcileAudioSubsystem
  split_ifs with hwant haudio
  -- it is not wanted: it is down, or has just been taken down
  · exact ⟨((Bool.not_eq_true' _).mp hwant).symm, rfl, rfl, rfl⟩
  · exact ⟨(Bool.eq_false_iff.mpr haudio).trans ((Bool.not_eq_true' _).mp hwant).symm, rfl, rfl, rfl⟩
  · have hup : (n.desiredRunning && n.config.audio.enabled) = true := by simpa using hwant
    have henabled : n.config.audio.enabled = true := (Bool.and_eq_true_iff.mp hup).2
    unfold ensureAudioSubsystem
    split_ifs with haudio hdisabled
    · exact ⟨haudio.trans hup.symm, rfl, rfl, rfl⟩
    · rw [henabled] at hdisabled
      cases hdisabled
    · dsimp only
      -- it comes up, and its sessions are put right in turn, which the switch does not depend on
      have hadvertised : ∀ m : Services, m.audio.isSome = true → m.desiredRunning = n.desiredRunning →
          m.config = n.config → m.halted = n.halted →
          (m.reconcileAudioSessions env).Asserted ∧
            (m.reconcileAudioSessions env).desiredRunning = n.desiredRunning ∧
            (m.reconcileAudioSessions env).config = n.config ∧
            (m.reconcileAudioSessions env).halted = n.halted := by
        intro m haudio hdesired hconfig hhalted
        have hsame := SameSwitch.reconcileAudioSessions env m
        refine ⟨hsame.asserted.mpr ?_, hsame.desiredRunning.trans hdesired, hsame.config.trans hconfig,
          hsame.halted.trans hhalted⟩
        unfold Asserted
        rw [haudio, hdesired, hconfig, hup]
      split
      · exact hadvertised _ rfl rfl rfl rfl
      · exact hadvertised _ rfl rfl rfl rfl

/-- Opening the subsystem again puts the switch right. -/
theorem asserted_reopenAudio (env : ServicesEnv) (n : Services) : (n.reopenAudio env).Asserted := by
  have hsent := SameSwitch.trySend (n.reconcileAudioSubsystem env) (.reconfigure n.config.audio)
  exact hsent.asserted.mpr (asserted_reconcileAudioSubsystem env n).1

/-- Taking down a listener that has ended leaves the switch alone. -/
theorem SameSwitch.retireAudioListener (n : Services) : n.SameSwitch n.retireAudioListener := by
  unfold Services.retireAudioListener
  split
  · exact ⟨rfl, rfl, rfl, rfl⟩
  · exact .refl n

/-- Opening a listener again leaves the switch alone. -/
theorem SameSwitch.reopenAudioListener (env : ServicesEnv) (n : Services) :
    n.SameSwitch (n.reopenAudioListener env) := by
  unfold Services.reopenAudioListener
  split
  · exact .refl n
  · split
    · exact ⟨rfl, rfl, rfl, rfl⟩
    · exact .refl n

/-- What a tick does once the subsystem has been put right. -/
def finishTick (env : ServicesEnv) (n : Services) : Services :=
  ((n.retireAudioListener.reopenAudioListener env).readvertise env).gcAudioTasks

/-- What a tick does before it comes to the audio subsystem. -/
def beginTick (env : ServicesEnv) (n : Services) : Services :=
  (((n.reconcileName.retireBrowser.reopenDiscovery env).retirePairing.reopenPairing
    env).retireSync.reopenSync env)

/-- The beginning of a tick is moves of the subsystem. -/
theorem Moves.beginTick {T : TrustedPeerStore → Prop} : Moves env T n (n.beginTick env) := by
  have hname : Moves env T n n.reconcileName := Moves.reconcileName
  refine (hname.trans Moves.retireBrowser).trans (Moves.reopenDiscovery.trans ?_)
  exact Moves.retirePairing.trans (Moves.reopenPairing.trans (Moves.retireSync.trans Moves.reopenSync))

/-- A tick: its beginning, the subsystem, its end, and whoever is due. -/
theorem tick_eq (env : ServicesEnv) (n : Services) :
    n.tick env = ((((n.beginTick env).retireAudio env).reopenAudio env).finishTick
      env).reconcileAudioSessions env := rfl

/-- The end of a tick leaves the switch alone. -/
theorem SameSwitch.finishTick (env : ServicesEnv) (n : Services) : n.SameSwitch (n.finishTick env) := by
  have hlistener := (SameSwitch.retireAudioListener n).trans
    (.reopenAudioListener env n.retireAudioListener)
  exact ⟨hlistener.audio, hlistener.desiredRunning, hlistener.config, hlistener.halted⟩

/-- **A tick puts the switch right**, whatever it was before. -/
theorem asserted_tick (env : ServicesEnv) (n : Services) : (n.tick env).Asserted := by
  rw [tick_eq, (SameSwitch.reconcileAudioSessions env _).asserted,
    (SameSwitch.finishTick env _).asserted]
  exact asserted_reopenAudio env _

/-- A configuration whose switch differs comes in by another way than `SetAudioConfig`. -/
def Flips (n : Services) : ServicesInput → Prop
  | .configChanged config _ => config.audio.enabled ≠ n.config.audio.enabled
  | _ => False

/-- The inputs that put the switch right whatever it was. -/
def rights : ServicesInput → Bool
  | .tick => true
  | .start => true
  | .stop => true
  | _ => false

/-- What a step leaves of the switch if it does not put it right. -/
structure LeavesSwitch (n : Services) (input : ServicesInput) (n' : Services) : Prop where
  audio : n'.audio = n.audio
  desiredRunning : n'.desiredRunning = n.desiredRunning
  enabled : n'.config.audio.enabled = n.config.audio.enabled ∨ n.Flips input
  passive : rights input = false

/-- What leaves the switch alone and is not to put it right leaves it as it should. -/
theorem SameSwitch.leaves (h : n.SameSwitch n') {input : ServicesInput} (hpassive : rights input = false) :
    n.LeavesSwitch input n' :=
  ⟨h.audio, h.desiredRunning, .inl (congrArg (fun c => c.audio.enabled) h.config), hpassive⟩

/-- A peer that is found leaves the switch alone. -/
theorem SameSwitch.found (env : ServicesEnv) (n : Services) (peer : DiscoveredPeer) :
    n.SameSwitch (n.found env peer) := by
  unfold Services.found
  dsimp only
  split
  · exact ⟨rfl, rfl, rfl, rfl⟩
  · have hrest := SameSwitch.reconcileAudioSessions env
      ({ n with peers := mapInsert n.peers peer.machineId peer }.emit (.peerDiscovered peer))
    exact ⟨hrest.audio, hrest.desiredRunning, hrest.config, hrest.halted⟩

/-- A peer that is lost leaves the switch alone. -/
theorem SameSwitch.lost (n : Services) (machineId : String) : n.SameSwitch (n.lost machineId) := by
  unfold Services.lost
  split
  · exact .refl n
  · have hrest := SameSwitch.trySend
      ({ n with
          peers := mapRemove n.peers machineId
          audioLive := n.audioLive.erase machineId
          audioBackoff := mapRemove n.audioBackoff machineId }.emit (.peerLost machineId))
      (.closePeer machineId)
    exact ⟨hrest.audio, hrest.desiredRunning, hrest.config, hrest.halted⟩

/-- A revocation leaves the switch alone. -/
theorem SameSwitch.revokeTrust (n : Services) (machineId : String) (fails : Option SaveFault) :
    n.SameSwitch (n.revokeTrust machineId fails) := by
  unfold Services.revokeTrust
  dsimp only
  split
  · have hrest := SameSwitch.trySend
      ({ n with trust := (n.trust.remove machineId fails).1 }.emit (.trustRevoked machineId))
      (.closePeer machineId)
    exact ⟨hrest.audio, hrest.desiredRunning, hrest.config, hrest.halted⟩
  · exact ⟨rfl, rfl, rfl, rfl⟩

/-- A step of a dial leaves the switch alone. -/
theorem SameSwitch.stepDial (n : Services) (i : ℕ) (move : DialMove) :
    n.SameSwitch (n.stepDial i move) := by
  obtain heq | ⟨d, -, heq | ⟨heq, -⟩ | ⟨t, trusted, opening, -, -, -, heq⟩ | ⟨outcome, -, heq⟩⟩ :=
    stepDial_cases n i move
  · rw [heq]
    exact .refl n
  all_goals
    rw [heq]
    exact ⟨rfl, rfl, rfl, rfl⟩

/-- What `SetAudioConfig` does to the switch: it is put right when it is thrown, else left alone. -/
theorem updateAudioConfig_switch (env : ServicesEnv) (n : Services) (config : Config)
    (headHash : String) :
    (n.updateAudioConfig env config headHash).Asserted ∨
      n.LeavesSwitch (.setAudioConfig config headHash) (n.updateAudioConfig env config headHash) := by
  unfold updateAudioConfig
  extract_lets old new n₁ n₂ n₃ n₄
  have h₃ : n₂.SameSwitch n₃ := .trySend n₂ _
  have h₄ : n₃.SameSwitch n₄ := by
    simp only [n₄]
    split
    · exact ⟨rfl, rfl, rfl, rfl⟩
    · exact .refl n₃
  have hrest := (h₃.trans h₄).trans (.reconcileAudioSessions env n₄)
  by_cases hthrown : old.enabled ≠ new.enabled
  · refine .inl (hrest.asserted.mpr ?_)
    simp only [n₂, if_pos hthrown]
    exact (asserted_reconcileAudioSubsystem env n₁).1
  · have h₂ : n₂ = n₁ := if_neg hthrown
    rw [h₂] at hrest
    refine .inr ⟨hrest.audio, hrest.desiredRunning, .inl ?_, rfl⟩
    rw [hrest.config]
    exact (not_not.mp hthrown).symm

/-- **What a step does to the switch**: it puts it right, or leaves what it depends on alone as far as
`LeavesSwitch` says, or ends the loop and the subsystem with it. -/
theorem stepRunning_switch (env : ServicesEnv) (n : Services) (input : ServicesInput) :
    (n.stepRunning env input).Asserted ∨ n.LeavesSwitch input (n.stepRunning env input) ∨
      (n.stepRunning env input).audio = none ∧ (n.stepRunning env input).halted = true := by
  cases input with
  -- three inputs and the tick end by putting the switch right
  | start => exact .inl (asserted_reconcileAudioSubsystem env _).1
  | stop => exact .inl (asserted_reconcileAudioSubsystem env _).1
  | setAudioConfig config headHash =>
      exact (updateAudioConfig_switch env n config headHash).imp_right .inl
  | configChanged config headHash =>
      -- a configuration that comes in from a sync is taken over, and nothing more is done about it
      refine .inr (.inl ⟨rfl, rfl, ?_, rfl⟩)
      exact Classical.em _
  | revokeTrust machineId fails => exact .inr (.inl ((SameSwitch.revokeTrust n machineId fails).leaves rfl))
  | pair peer fails => exact .inr (.inl ⟨rfl, rfl, .inl rfl, rfl⟩)
  | found peer => exact .inr (.inl ((SameSwitch.found env n peer).leaves rfl))
  | lost machineId => exact .inr (.inl ((SameSwitch.lost n machineId).leaves rfl))
  | tick => exact .inl (asserted_tick env n)
  | dialDone =>
      obtain heq | ⟨outcome, rest, backoff, -, heq⟩ := takeDialDone_cases env n
      all_goals
        refine .inr (.inl ?_)
        rw [stepRunning, heq]
        exact ⟨rfl, rfl, .inl rfl, rfl⟩
  | audioEvent =>
      obtain heq | ⟨t, e, rest, backoff, told, -, -, -, -, heq⟩ := takeAudioEvent_cases env n
      all_goals
        refine .inr (.inl ?_)
        rw [stepRunning, heq]
        exact ⟨rfl, rfl, .inl rfl, rfl⟩
  | dial i move => exact .inr (.inl ((SameSwitch.stepDial n i move).leaves rfl))
  | accept =>
      obtain ⟨signals, bridge, heq⟩ := accept_eq n
      refine .inr (.inl ?_)
      rw [stepRunning, heq]
      exact ⟨rfl, rfl, .inl rfl, rfl⟩
  | signal i move =>
      obtain ⟨signals, bridge, heq⟩ := stepSignal_eq n i move
      refine .inr (.inl ?_)
      rw [stepRunning, heq]
      exact ⟨rfl, rfl, .inl rfl, rfl⟩
  | bridge reap =>
      obtain ⟨bridge, heq⟩ := stepBridge_eq n reap
      refine .inr (.inl ?_)
      rw [stepRunning, heq]
      exact ⟨rfl, rfl, .inl rfl, rfl⟩
  | driver peer report =>
      obtain ⟨bridge, heq⟩ := stepDriver_eq n peer report
      refine .inr (.inl ?_)
      rw [stepRunning, heq]
      exact ⟨rfl, rfl, .inl rfl, rfl⟩
  | pairingEnds => exact .inr (.inl ⟨rfl, rfl, .inl rfl, rfl⟩)
  | syncEnds => exact .inr (.inl ⟨rfl, rfl, .inl rfl, rfl⟩)
  | audioEnds => exact .inr (.inl ⟨rfl, rfl, .inl rfl, rfl⟩)
  | bridgeDies => exact .inr (.inl ⟨rfl, rfl, .inl rfl, rfl⟩)
  | browserEnds => exact .inr (.inl ⟨rfl, rfl, .inl rfl, rfl⟩)
  -- the loop is over, and the subsystem goes with it
  | shutdown => exact .inr (.inr ⟨rfl, rfl⟩)

/-- A configuration has come in behind the loop's back, and nothing has put the switch right since. -/
def Behind (b : Boot) (acts : List (ServicesEnv × ServicesInput)) (k : ℕ) : Prop :=
  ∃ i env input, i < k ∧ acts[i]? = some (env, input) ∧
    (Run.after step b.services acts i).Flips input ∧
    ∀ l env' input', i < l → l < k → acts[l]? = some (env', input') → rights input' = false

/-- A step that does not put the switch right leaves it behind if it was. -/
theorem Behind.succ {b : Boot} {acts : List (ServicesEnv × ServicesInput)} {k : ℕ}
    (h : Behind b acts k)
    (hpassive : ∀ env input, acts[k]? = some (env, input) → rights input = false) :
    Behind b acts (k + 1) := by
  obtain ⟨i, env, input, hik, hi, hflips, hsince⟩ := h
  refine ⟨i, env, input, Nat.lt_succ_of_lt hik, hi, hflips, fun l env' input' hil hlk hl => ?_⟩
  obtain hlk | rfl := Nat.lt_succ_iff_lt_or_eq.mp hlk
  · exact hsince l env' input' hil hlk hl
  · exact hpassive env' input' hl

/-- A Synbad that is stopped has no audio. -/
def Silent (n : Services) : Prop := n.desiredRunning = true ∨ n.audio = none

/-- A switch that is right is silent where nothing is to run. -/
theorem Asserted.silent (h : n.Asserted) : n.Silent := by
  unfold Asserted at h
  unfold Silent
  cases hdesired : n.desiredRunning with
  | true => exact .inl rfl
  | false =>
      rw [hdesired, Bool.false_and] at h
      exact .inr (Option.not_isSome_iff_eq_none.mp (Bool.eq_false_iff.mp h))

/-- In every run nothing sounds while nothing is to run. -/
theorem run_silent (b : Boot) (acts : List (ServicesEnv × ServicesInput)) (k : ℕ) :
    (Run.after step b.services acts k).Silent := by
  refine Run.invariant (asserted_reconcileAudioSubsystem b.env _).1.silent ?_ k
  intro i input _ h
  unfold step
  split
  · exact h
  · obtain hright | hleaves | ⟨hnone, -⟩ := stepRunning_switch input.1 _ input.2
    · exact hright.silent
    · unfold Silent
      rw [hleaves.audio, hleaves.desiredRunning]
      exact h
    · exact .inr hnone

/-- **Input and audio go together.** A stopped Synbad never has audio up; and while the loop runs, audio
is up exactly when Synbad is to run and audio is on, unless the configuration's switch was changed other
than by `SetAudioConfig` and there has been no tick, `Start` or `Stop` since. -/
theorem audio_follows_run_state (b : Boot) (acts : List (ServicesEnv × ServicesInput)) (k : ℕ) :
    ((Run.after step b.services acts k).desiredRunning = true ∨
      (Run.after step b.services acts k).audio = none) ∧
    ((Run.after step b.services acts k).halted = true ∨
      (Run.after step b.services acts k).Asserted ∨ Behind b acts k) := by
  refine ⟨run_silent b acts k, ?_⟩
  induction k with
  | zero => exact .inr (.inl (asserted_reconcileAudioSubsystem b.env _).1)
  | succ k ih =>
      cases ha : acts[k]? with
      | none =>
          rw [Run.after_succ_none ha]
          refine ih.imp_right (Or.imp_right fun h => h.succ fun env input hinput => ?_)
          rw [ha] at hinput
          cases hinput
      | some act =>
          obtain ⟨env, input⟩ := act
          rw [Run.after_succ ha]
          unfold step
          split
          · next hhalted => exact .inl hhalted
          · next hrunning =>
              obtain hright | hleaves | ⟨-, hhalted⟩ := stepRunning_switch env _ input
              · exact .inr (.inl hright)
              -- while a configuration waits to be noticed, no later step has put the switch right
              · have hpassive : ∀ env' input', acts[k]? = some (env', input') →
                    rights input' = false := by
                  intro env' input' hinput
                  rw [ha] at hinput
                  cases hinput
                  exact hleaves.passive
                obtain hsame | hflips := hleaves.enabled
                · obtain hhalted | hasserted | hbehind := ih
                  · exact absurd hhalted hrunning
                  · refine .inr (.inl ?_)
                    unfold Asserted
                    rw [hleaves.audio, hleaves.desiredRunning, hsame]
                    exact hasserted
                  · exact .inr (.inr (hbehind.succ hpassive))
                -- this step is the one after which the switch is behind
                · refine .inr (.inr ⟨k, env, input, Nat.lt_succ_self k, ha, hflips, ?_⟩)
                  intro l _ _ hkl hlk
                  omega
              · exact .inl hhalted

/-! ## Nobody is left out -/

/-- A peer a session is due to: visible, trusted, with a port and routed, ours to dial, not backed off
and not looked at while the trust store is held. -/
structure Due (env : ServicesEnv) (n : Services) (p : String) : Prop where
  looked : p ∈ env.order
  visible : ∃ peer, n.peers p = some peer ∧ peer.audioPort ≠ 0
  active : peerAudioActive n.config.audio p = true
  larger : n.machineId < p
  trusted : n.trust.contains p = true
  unlocked : env.trustBusy p = false
  due : ∀ b ∈ n.audioBackoff p, b.nextAttempt ≤ env.now

/-- Dialing a peer changes who is in flight and the tasks, and nothing else. -/
theorem dialAudioOne_frame (env : ServicesEnv) (n : Services) (peer : DiscoveredPeer) :
    ∃ inflight tasks, n.audioInflight ⊆ inflight ∧
      n.dialAudioOne env peer = { n with audioInflight := inflight, audioTasks := tasks } := by
  obtain heq | ⟨bridge, -, heq⟩ := dialAudioOne_cases env n peer
  · exact ⟨n.audioInflight, n.audioTasks, Finset.Subset.refl _, heq⟩
  · exact ⟨_, _, Finset.subset_insert peer.machineId n.audioInflight, heq⟩

/-- Dialing some peers adds to those who are being dialled, and to the tasks. -/
theorem dials_frame (env : ServicesEnv) (peers : List DiscoveredPeer) (n : Services) :
    ∃ inflight tasks, n.audioInflight ⊆ inflight ∧
      peers.foldl (dialAudioOne env) n = { n with audioInflight := inflight, audioTasks := tasks } := by
  induction peers generalizing n with
  | nil => exact ⟨n.audioInflight, n.audioTasks, Finset.Subset.refl _, rfl⟩
  | cons peer peers ih =>
      obtain ⟨inflight, tasks, hsub, heq⟩ := dialAudioOne_frame env n peer
      obtain ⟨inflight', tasks', hsub', heq'⟩ := ih (n.dialAudioOne env peer)
      rw [heq] at hsub' heq'
      refine ⟨inflight', tasks', hsub.trans hsub', ?_⟩
      rw [List.foldl_cons, heq, heq']

/-- A peer that is due is dialled when it is come to, unless it is live or in flight. -/
theorem Due.dialled {p : String} (h : Due env n p) (keyed : PeersKeyed n.peers)
    (hup : n.audioDialDeps.isSome = true) {peer : DiscoveredPeer} (hpeer : n.peers p = some peer) :
    p ∈ (n.dialAudioOne env peer).audioLive ∨ p ∈ (n.dialAudioOne env peer).audioInflight := by
  have hid : peer.machineId = p := keyed p peer hpeer
  obtain ⟨peer', hpeer', hport⟩ := h.visible
  obtain rfl : peer = peer' := Option.some.inj (hpeer.symm.trans hpeer')
  obtain ⟨bridge, hbridge⟩ := Option.isSome_iff_exists.mp hup
  obtain ⟨inflight, tasks, hsub, heq⟩ := dialAudioOne_frame env n peer
  by_cases hlive : p ∈ n.audioLive
  · rw [heq]
    exact .inl hlive
  · by_cases hinflight : p ∈ n.audioInflight
    · rw [heq]
      exact .inr (hsub hinflight)
    · subst hid
      have gates : Gates env n peer bridge :=
        ⟨hbridge, hport, h.active, h.larger, hlive, hinflight, h.due, h.unlocked, h.trusted⟩
      rw [gates.dialAudioOne]
      exact .inr (Finset.mem_insert_self ..)

/-- **Going through the peers leaves nobody out** that is due. -/
theorem reconcileAudioSessions_covers (keyed : PeersKeyed n.peers)
    (hup : n.audioDialDeps.isSome = true) {p : String} (h : Due env n p) :
    p ∈ (n.reconcileAudioSessions env).audioLive ∨ p ∈ (n.reconcileAudioSessions env).audioInflight := by
  obtain ⟨peer, hpeer, -⟩ := h.visible
  have hmem : peer ∈ env.order.filterMap n.peers := List.mem_filterMap.mpr ⟨p, h.looked, hpeer⟩
  obtain ⟨before, after, hsplit⟩ := List.append_of_mem hmem
  unfold reconcileAudioSessions
  have hsome : ¬n.audioDialDeps.isNone = true := by
    rw [Option.isNone_iff_eq_none]
    exact Option.isSome_iff_ne_none.mp hup
  rw [if_neg hsome, hsplit, List.foldl_append, List.foldl_cons]
  -- what comes before it changes nothing it depends on, what comes after takes nothing back
  obtain ⟨inflight, tasks, -, heq⟩ := dials_frame env before n
  rw [heq]
  obtain ⟨inflight', tasks', hsub, heq'⟩ := dials_frame env after
    (dialAudioOne env { n with audioInflight := inflight, audioTasks := tasks } peer)
  rw [heq']
  have hdue : Due env { n with audioInflight := inflight, audioTasks := tasks } p :=
    ⟨h.looked, h.visible, h.active, h.larger, h.trusted, h.unlocked, h.due⟩
  exact (hdue.dialled keyed hup hpeer).imp_right fun hin => hsub hin

/-- A tick covers every peer that is due after it. -/
theorem tick_covers (keyed : PeersKeyed (n.tick env).peers)
    (hup : (n.tick env).audioDialDeps.isSome = true) {p : String} (h : Due env (n.tick env) p) :
    p ∈ (n.tick env).audioLive ∨ p ∈ (n.tick env).audioInflight := by
  obtain ⟨m, hm⟩ : ∃ m : Services, n.tick env = (m.finishTick env).reconcileAudioSessions env :=
    ⟨_, tick_eq env n⟩
  -- the last thing a tick does is to go through the peers, which changes nothing it depends on
  obtain ⟨inflight, tasks, hframe⟩ : ∃ inflight tasks,
      (m.finishTick env).reconcileAudioSessions env =
        { m.finishTick env with
          audioInflight := inflight, audioTasks := tasks } := by
    unfold reconcileAudioSessions
    split
    · exact ⟨_, _, rfl⟩
    · obtain ⟨inflight, tasks, -, heq⟩ := dials_frame env
        (env.order.filterMap (m.finishTick env).peers)
        (m.finishTick env)
      exact ⟨inflight, tasks, heq⟩
  have hback := h
  rw [hm, hframe] at keyed hup hback
  have hdue : Due env (m.finishTick env) p :=
    ⟨hback.looked, hback.visible, hback.active, hback.larger, hback.trusted, hback.unlocked,
      hback.due⟩
  have hkeyed : PeersKeyed (m.finishTick env).peers := keyed
  have hdeps : (m.finishTick env).audioDialDeps.isSome = true := hup
  rw [hm]
  exact reconcileAudioSessions_covers hkeyed hdeps hdue

/-- Every peer is entered under its own id, in every state of every run. -/
theorem run_keyed (b : Boot) (acts : List (ServicesEnv × ServicesInput)) (k : ℕ) :
    PeersKeyed (Run.after step b.services acts k).peers := by
  have hkeyed : ∀ (env : ServicesEnv) (m m' : Services), Move env (fun _ => True) m m' →
      PeersKeyed m.peers → PeersKeyed m'.peers := by
    intro env m m' hmove h
    cases hmove with
    -- only a peer that is found or lost writes in the map, and it does so under the peer's own id
    | aside _ _ _ _ keyed => exact keyed h
    | trust => exact h
    | emit => exact h
    | bringUp => exact h
    | teardown => exact h
    | dial peer =>
        rw [peers_dialAudioOne]
        exact h
    | gc => exact h
    | forget => exact h
    | dialDone =>
        obtain heq | ⟨outcome, rest, backoff, -, heq⟩ := takeDialDone_cases env m
        all_goals
          rw [heq]
          exact h
    | audioEvent =>
        obtain heq | ⟨t, e, rest, backoff, told, -, -, -, -, heq⟩ := takeAudioEvent_cases env m
        all_goals
          rw [heq]
          exact h
    | send c =>
        obtain heq | ⟨t, -, -, heq⟩ := trySend_cases m c
        all_goals
          rw [heq]
          exact h
    | stepDial i move =>
        obtain heq | ⟨d, -, heq | ⟨heq, -⟩ | ⟨t, trusted, opening, -, -, -, heq⟩ |
          ⟨outcome, -, heq⟩⟩ := stepDial_cases m i move
        all_goals
          rw [heq]
          exact h
    | listener => exact h
    | accept =>
        obtain ⟨signals, bridge, heq⟩ := accept_eq m
        rw [heq]
        exact h
    | stepSignal i move =>
        obtain ⟨signals, bridge, heq⟩ := stepSignal_eq m i move
        rw [heq]
        exact h
    | bridge reap =>
        obtain ⟨bridge, heq⟩ := stepBridge_eq m reap
        rw [heq]
        exact h
    | driver peer report =>
        obtain ⟨bridge, heq⟩ := stepDriver_eq m peer report
        rw [heq]
        exact h
    | bridgeDies => exact h
  have hstart : ∀ id peer, (none : Option DiscoveredPeer) = some peer → peer.machineId = id := nofun
  have hrun : ∀ m : ℕ, (fun s : Services => PeersKeyed s.peers) (Run.after step b.services acts m) :=
    run_invariant b (fun id peer => hstart id peer) hkeyed acts
  exact hrun k

/-- **After a tick nobody is left out.** In any run, once the loop has taken a tick while Synbad is to
run, every peer that is due a session has one or is being dialled. -/
theorem tick_leaves_nobody_out (b : Boot) {acts : List (ServicesEnv × ServicesInput)} {k : ℕ}
    (htick : acts[k]? = some (env, .tick))
    (hrunning : (Run.after step b.services acts k).halted = false)
    (hdesired : (Run.after step b.services acts (k + 1)).desiredRunning = true) {p : String}
    (hdue : Due env (Run.after step b.services acts (k + 1)) p) :
    p ∈ (Run.after step b.services acts (k + 1)).audioLive ∨
      p ∈ (Run.after step b.services acts (k + 1)).audioInflight := by
  have hkeyed := run_keyed b acts (k + 1)
  have hwired := run_wired b acts (k + 1)
  have hstep : Run.after step b.services acts (k + 1) =
      (Run.after step b.services acts k).tick env := by
    rw [Run.after_succ htick, step, if_neg (Bool.eq_false_iff.mp hrunning)]
    rfl
  rw [hstep] at hkeyed hwired hdesired hdue ⊢
  refine tick_covers hkeyed ?_ hdue
  -- audio is on, or the peer would not be routed
  have hactive := hdue.active
  rw [peerAudioActive_eq] at hactive
  have henabled := (Bool.and_eq_true_iff.mp hactive).1
  rw [hwired.dialDeps]
  have hasserted := asserted_tick env (Run.after step b.services acts k)
  rw [Asserted, hdesired, henabled] at hasserted
  exact hasserted

/-- An outside in which everything binds, but mDNS does not start. -/
def plainEnv : ServicesEnv where
  now := 0
  order := ["b"]
  trustBusy _ := false
  macos := false
  bindPairing := none
  bindSync := none
  bindAudio := none
  bindAudioAgain := none
  browserStart := none
  mdnsStart := { MdnsAnswers.calm with newDaemon := some "no network" }
  mdnsUp := .calm
  mdnsDown := .calm
  mdnsRefresh := .calm

/-- Machine `a`, which has paired with `b` and has audio on. -/
def bootA : Boot where
  hex := .standard
  env := plainEnv
  machineId := "a"
  fingerprint := ""
  config := { Config.default with audio := { AudioConfig.default with enabled := true } }
  headHash := ""
  trust := ⟨.missing, [⟨"b", "B", "", "", 0⟩]⟩
  userStopped := false

/-- Machine `b`, as discovery finds it on the network. -/
def peerB : DiscoveredPeer := ⟨"b", "B", "host", [], 1, 2, 3, 4, "", 1, ""⟩

/-- A peer that is found and due is live or being dialled after a tick. -/
theorem tick_leaves_nobody_out_found :
    "b" ∈ (Run.after step bootA.services [(plainEnv, .found peerB), (plainEnv, .tick)] 2).audioLive ∨
      "b" ∈ (Run.after step bootA.services
        [(plainEnv, .found peerB), (plainEnv, .tick)] 2).audioInflight :=
  @tick_leaves_nobody_out plainEnv bootA _ 1 rfl rfl rfl "b"
    ⟨List.mem_singleton.mpr rfl, ⟨peerB, rfl, by decide⟩, by rfl, by decide, by rfl, rfl, nofun⟩

end Services

end Synbad
