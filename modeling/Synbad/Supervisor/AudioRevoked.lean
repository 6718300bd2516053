import Synbad.Supervisor.AudioLive

/-! # Revoked peers

The bridge looks into the trust store when a stream is handed to it and when it ticks, and nothing
else opens a session. So a peer whose trust is revoked has no session after the bridge's next tick,
and gets none back until it is trusted again.

`mem_iterate` says of one iteration of the bridge that every session it leaves was there before or is
of a trusted peer. `Kept.move` is the same of every move but a bring-up, of which the bridge starts
without sessions. A peer is `Barred` if it is not trusted and has no session; that is kept as long as
it is not trusted, and the bridge's tick establishes it, since it closes what is not trusted
(`without_reap`). `revoked_peer_has_no_session` is the statement over runs: from that tick on, for as
long as the peer is not in the trust store, whatever it offers and whoever dials. -/

namespace Synbad

open Audio

namespace Services

variable {b : AudioBridge} {env : ServicesEnv} {n n' : Services}

/-- A bridge that is over has no session left. -/
def Drained (b : AudioBridge) : Prop := b.exited = true → b.sessions = []

/-- A bridge that drains has no session left. -/
theorem drained_drain (b : AudioBridge) : Drained b.drain := by
  intro _
  refine List.eq_nil_iff_forall_not_mem.mpr fun s hs => ?_
  obtain ⟨hmem, hnot⟩ := (AudioBridge.mem_closeAll _).mp hs
  exact hnot (List.mem_map_of_mem hmem)

/-- A signal does not make the bridge exit. -/
theorem exited_incomingSignal (b : AudioBridge) (peer : String) (opening : Opening) :
    (b.incomingSignal peer opening).exited = b.exited := by
  unfold AudioBridge.incomingSignal
  split_ifs
  · rfl
  · rfl
  · have hstarted := (AudioBridge.OnlyReports.start (b.closeSession peer) peer opening).exited
    rw [AudioBridge.exited_closeSession] at hstarted
    split
    · next b' session heq =>
        rw [heq] at hstarted
        rw [AudioBridge.exited_send]
        exact hstarted
    · next b' e heq =>
        rw [heq] at hstarted
        rw [AudioBridge.exited_send]
        exact hstarted

/-- A bridge that has exited stays without sessions, whatever comes. -/
theorem drained_iterate (h : Drained b) (input : Audio.Input) : Drained (b.iterate input) := by
  have hrunning : ∀ b' : AudioBridge, b'.exited = b.exited → b.exited = false → Drained b' := by
    intro b' heq hfalse htrue
    rw [heq, hfalse] at htrue
    cases htrue
  unfold AudioBridge.iterate
  split
  · exact h
  · next hexited =>
      rw [Bool.not_eq_true] at hexited
      split
      · exact AudioBridge.sessions_reapAll_of_exited hexited
      · exact drained_drain b
      · exact hrunning _ (exited_incomingSignal ..) hexited
      · exact hrunning _ (AudioBridge.exited_closeAll _) hexited
      · exact h
      · exact h
      · exact hrunning _ (AudioBridge.exited_closeSession ..) hexited
      · exact drained_drain b

/-- **What an iteration leaves** was there before, or its peer is trusted. -/
theorem mem_iterate {s : AudioSession} {input : Audio.Input} (hs : s ∈ (b.iterate input).sessions) :
    s ∈ b.sessions ∨ b.trust.contains s.peerMachineId = true := by
  unfold AudioBridge.iterate at hs
  split at hs
  · exact .inl hs
  · split at hs
    · exact .inl (AudioBridge.mem_reapAll hs).1
    · exact .inl ((AudioBridge.mem_closeAll _).mp hs).1
    -- of all the bridge does only a signal adds a session, and it asks for the trust first
    · next peer opening =>
        unfold AudioBridge.incomingSignal at hs
        split_ifs at hs with htrust hactive
        · exact .inl hs
        · exact .inl hs
        · have hstarted :=
            (AudioBridge.OnlyReports.start (b.closeSession peer) peer opening).sessions
          split at hs
          · next b' session heq =>
              have hkey := (peer_of_start (congrArg Prod.snd heq)).1
              rw [heq] at hstarted
              rw [AudioBridge.sessions_send] at hs
              obtain rfl | hs := Keyed.mem_put hs
              · rw [hkey]
                exact .inr (by simpa using htrust)
              · rw [hstarted] at hs
                exact .inl (AudioBridge.mem_closeSession.mp hs).1
          -- the new session has not come up, and the earlier one is closed
          · next b' e heq =>
              rw [heq] at hstarted
              rw [AudioBridge.sessions_send, hstarted] at hs
              exact .inl (AudioBridge.mem_closeSession.mp hs).1
    · exact .inl ((AudioBridge.mem_closeAll _).mp hs).1
    · exact .inl hs
    · exact .inl hs
    · exact .inl (AudioBridge.mem_closeSession.mp hs).1
    · exact .inl ((AudioBridge.mem_closeAll _).mp hs).1

/-- How a step of another task changes the sessions of the bridge. -/
structure Kept (n n' : Services) : Prop where
  kept : ∀ t' ∈ n'.bridge, ∃ t ∈ n.bridge, (Drained t.bridge → Drained t'.bridge) ∧
    ∀ s' ∈ t'.bridge.sessions, (∃ s ∈ t.bridge.sessions, s.peerMachineId = s'.peerMachineId) ∨
      n.trust.contains s'.peerMachineId = true

namespace Kept

/-- What leaves the bridge alone keeps it. -/
theorem same (hbridge : n'.bridge = n.bridge) : Kept n n' where
  kept t ht := ⟨t, hbridge ▸ ht, id, fun s hs => .inl ⟨s, hs, rfl⟩⟩

/-- A step that changes nothing of the bridge but its channels keeps its sessions. -/
theorem withBridge {t t' : BridgeTask} (ht : n.bridge = some t) (hbridge : t'.bridge = t.bridge) :
    Kept n (n.withBridge t') where
  kept x hx := by
    rw [← Option.some.inj hx, hbridge]
    exact ⟨t, ht, id, fun s hs => .inl ⟨s, hs, rfl⟩⟩

/-- An iteration of the bridge over the trust store there is keeps what is to be kept. -/
theorem iterated {t : BridgeTask} (ht : n.bridge = some t) (input : Audio.Input) {t' : BridgeTask}
    (hbridge : t'.bridge = (t.bridge.outside (.trustChanges n.trust)).iterate input) :
    Kept n (n.withBridge t') where
  kept x hx := by
    rw [← Option.some.inj hx, hbridge]
    refine ⟨t, ht, fun h => ?_, fun s hs => ?_⟩
    · exact drained_iterate (b := t.bridge.outside (.trustChanges n.trust)) h input
    · exact (mem_iterate hs).imp_left fun hs => ⟨s, hs, rfl⟩

/-- An iteration of the bridge keeps it. -/
theorem stepBridge (n : Services) (reap : Bool) : Kept n (n.stepBridge reap) := by
  unfold Services.stepBridge
  split
  · exact same rfl
  · next t ht =>
      split
      · exact iterated ht .tick rfl
      · next c commands _ => exact iterated ht (.command (some c)) rfl
      · exact same rfl

/-- What a driver reports keeps it. -/
theorem stepDriver (n : Services) (peer : String) (report : DriverReport) :
    Kept n (n.stepDriver peer report) := by
  unfold Services.stepDriver
  split
  · exact same rfl
  · next t ht =>
      split
      · exact same rfl
      · split
        · exact same rfl
        · refine ⟨fun x hx => ?_⟩
          rw [← Option.some.inj hx]
          refine ⟨t, ht, fun h hexited => ?_, fun s' hs' => .inl ?_⟩
          · show List.map _ t.bridge.sessions = []
            rw [h hexited]
            rfl
          · obtain ⟨s, hs, rfl⟩ := List.mem_map.mp hs'
            refine ⟨s, hs, ?_⟩
            split <;> rfl

/-- A command that is sent keeps it. -/
theorem trySend (n : Services) (c : AudioCommand) : Kept n (n.trySend c) := by
  obtain heq | ⟨t, ht, -, heq⟩ := trySend_cases n c
  · rw [heq]
    exact same rfl
  · rw [heq]
    exact withBridge ht rfl

/-- A step of a dial keeps it. -/
theorem stepDial (n : Services) (i : ℕ) (move : DialMove) : Kept n (n.stepDial i move) := by
  obtain heq | ⟨d, -, heq | ⟨heq, -⟩ | ⟨t, trusted, opening, ht, -, -, heq⟩ | ⟨outcome, -, heq⟩⟩ :=
    stepDial_cases n i move
  · rw [heq]
    exact same rfl
  · rw [heq]
    exact same rfl
  · rw [heq]
    exact same rfl
  · rw [heq]
    refine ⟨(withBridge ht ?_).kept⟩
    rfl
  · rw [heq]
    exact same rfl

/-- A step of an accepted connection keeps it. -/
theorem stepSignal (n : Services) (i : ℕ) (move : SignalMove) : Kept n (n.stepSignal i move) := by
  unfold Services.stepSignal
  split
  · exact same rfl
  · split
    · split
      · exact same rfl
      · next t ht =>
          split_ifs
          · exact same rfl
          · refine ⟨(withBridge ht ?_).kept⟩
            rfl
          · exact same rfl
    · exact same rfl

/-- **Every move but a bring-up keeps the bridge's sessions**, closes some, or opens one of a trusted
peer. -/
theorem move {T : TrustedPeerStore → Prop} (step : Move env T n n') :
    Kept n n' ∨ ∃ listener, n' = n.bringUp listener := by
  cases step with
  | aside => exact .inl (same rfl)
  | trust => exact .inl (same rfl)
  | emit => exact .inl (same rfl)
  | bringUp listener => exact .inr ⟨listener, rfl⟩
  | teardown => exact .inl ⟨nofun⟩
  | dial peer =>
      obtain heq | ⟨bridge, -, heq⟩ := dialAudioOne_cases env n peer
      all_goals
        rw [heq]
        exact .inl (same rfl)
  | gc => exact .inl (same rfl)
  | forget => exact .inl (same rfl)
  | dialDone =>
      obtain heq | ⟨outcome, rest, backoff, -, heq⟩ := takeDialDone_cases env n
      all_goals
        rw [heq]
        exact .inl (same rfl)
  | audioEvent =>
      obtain heq | ⟨t, e, rest, backoff, told, -, ht, -, -, heq⟩ := takeAudioEvent_cases env n
      · rw [heq]
        exact .inl (same rfl)
      · rw [heq]
        -- a notice is taken off the channel, and the bridge is as it was
        refine .inl ⟨(withBridge ht ?_).kept⟩
        rfl
  | send c => exact .inl (trySend n c)
  | stepDial i move => exact .inl (stepDial n i move)
  | listener => exact .inl (same rfl)
  | accept =>
      unfold Services.accept
      split
      · exact .inl (same rfl)
      · dsimp only
        split
        · exact .inl (same rfl)
        · exact .inl (same rfl)
  | stepSignal i move => exact .inl (stepSignal n i move)
  | bridge reap => exact .inl (stepBridge n reap)
  | driver peer report => exact .inl (stepDriver n peer report)
  | bridgeDies =>
      refine .inl ⟨fun t' ht' => ?_⟩
      -- a bridge that dies has no sessions left
      obtain ⟨t, ht, rfl⟩ := Option.map_eq_some_iff.mp ht'
      exact ⟨t, ht, fun _ _ => rfl, fun s hs => absurd hs List.not_mem_nil⟩

end Kept

/-- Of the bridge that there may be: if it is over, it has no session left. -/
def DrainedBridge (n : Services) : Prop := ∀ t ∈ n.bridge, Drained t.bridge

/-- The bridge that there may be has no session of this peer. -/
def Without (m : String) (n : Services) : Prop := ∀ t ∈ n.bridge, ∀ s ∈ t.bridge.sessions, s.peerMachineId ≠ m

/-- In every run a bridge that has exited has no sessions. -/
theorem run_drained (b : Boot) (acts : List (ServicesEnv × ServicesInput)) (k : ℕ) :
    DrainedBridge (Run.after step b.services acts k) := by
  refine run_invariant b nofun (fun env n n' hmove h => ?_) acts k
  obtain hkept | ⟨listener, rfl⟩ := Kept.move hmove
  · intro t' ht'
    obtain ⟨t, ht, hdrained, -⟩ := hkept.kept t' ht'
    exact hdrained (h t ht)
  · intro t ht
    rw [Option.mem_def, Heard.bridge_bringUp] at ht
    rw [← Option.some.inj ht]
    exact fun _ => rfl

/-- No step opens a session of a peer that is not trusted. -/
theorem Without.move {m : String} (h : n.Without m) (huntrusted : n.trust.contains m = false)
    {T : TrustedPeerStore → Prop} (hmove : Move env T n n') : n'.Without m := by
  obtain hkept | ⟨listener, rfl⟩ := Kept.move hmove
  · intro t' ht' s' hs' hm
    obtain ⟨t, ht, -, hsessions⟩ := hkept.kept t' ht'
    -- a session is an old one, or of a trusted peer
    obtain ⟨s, hs, hkey⟩ | htrusted := hsessions s' hs'
    · exact h t ht s hs (hkey.trans hm)
    · rw [hm, huntrusted] at htrusted
      cases htrusted
  · intro t ht
    rw [Option.mem_def, Heard.bridge_bringUp] at ht
    rw [← Option.some.inj ht]
    exact fun s hs => absurd hs List.not_mem_nil

/-- A move leaves the trust store alone, or is the one that writes it. -/
theorem trust_move {T : TrustedPeerStore → Prop} (hmove : Move env T n n') :
    n'.trust = n.trust ∨ T n'.trust := by
  cases hmove with
  -- the one step that changes the store is somebody's else, and is allowed as given
  | trust store allowed => exact .inr allowed
  | dial peer =>
      obtain heq | ⟨bridge, -, heq⟩ := dialAudioOne_cases env n peer
      all_goals
        rw [heq]
        exact .inl rfl
  | dialDone =>
      obtain heq | ⟨outcome, rest, backoff, -, heq⟩ := takeDialDone_cases env n
      all_goals
        rw [heq]
        exact .inl rfl
  | audioEvent =>
      obtain heq | ⟨t, e, rest, backoff, told, -, -, -, -, heq⟩ := takeAudioEvent_cases env n
      all_goals
        rw [heq]
        exact .inl rfl
  | send c => exact .inl (trust_trySend n c)
  | stepDial i move =>
      obtain heq | ⟨d, -, heq | ⟨heq, -⟩ | ⟨t, trusted, opening, -, -, -, heq⟩ | ⟨outcome, -, heq⟩⟩ :=
        stepDial_cases n i move
      all_goals
        rw [heq]
        exact .inl rfl
  | accept =>
      obtain ⟨signals, bridge, heq⟩ := accept_eq n
      rw [heq]
      exact .inl rfl
  | stepSignal i move =>
      obtain ⟨signals, bridge, heq⟩ := stepSignal_eq n i move
      rw [heq]
      exact .inl rfl
  | bridge reap =>
      obtain ⟨bridge, heq⟩ := stepBridge_eq n reap
      rw [heq]
      exact .inl rfl
  | driver peer report =>
      obtain ⟨bridge, heq⟩ := stepDriver_eq n peer report
      rw [heq]
      exact .inl rfl
  | _ => exact .inl rfl

/-- The bridge's tick closes every session whose peer is not trusted. -/
theorem without_reap {m : String} (h : n.DrainedBridge) (huntrusted : n.trust.contains m = false) :
    (n.stepBridge true).Without m := by
  unfold Services.stepBridge
  cases hbridge : n.bridge with
  | none =>
      intro t ht
      cases hbridge.symm.trans ht
  | some t =>
      intro t' ht' s hs hm
      rw [← Option.some.inj ht'] at hs
      by_cases hexited : t.bridge.exited = true
      · -- a bridge that is over has none anyway
        have hnone : (t.bridge.outside (.trustChanges n.trust)).iterate .tick =
            t.bridge.outside (.trustChanges n.trust) := if_pos hexited
        have hs' : s ∈ t.bridge.sessions := by
          rw [hnone] at hs
          exact hs
        rw [h t hbridge hexited] at hs'
        exact absurd hs' List.not_mem_nil
      · have hreap : (t.bridge.outside (.trustChanges n.trust)).iterate .tick =
            (t.bridge.outside (.trustChanges n.trust)).reap := if_neg hexited
        rw [hreap] at hs
        have htrusted := AudioBridge.contains_of_mem_reap hs
        rw [hm] at htrusted
        exact absurd (huntrusted.symm.trans htrusted) (by decide)

/-- A peer that is not trusted and has no session. -/
structure Barred (m : String) (n : Services) : Prop where
  without : n.Without m
  untrusted : n.trust.contains m = false

/-- **A revoked peer loses its session and gets none.** Once the bridge has ticked while a peer is not
trusted, it has no session of the peer for as long as the peer is not trusted again: not through a dial or
a connection already on its way, and not through a bridge that comes up anew. -/
theorem revoked_peer_has_no_session (b : Boot) {acts : List (ServicesEnv × ServicesInput)} {i k : ℕ}
    {env : ServicesEnv} {m : String} (hreap : acts[i]? = some (env, .bridge true)) (hik : i < k)
    (hrunning : (Run.after step b.services acts i).halted = false)
    (hrevoked : ∀ l, i ≤ l → l ≤ k → (Run.after step b.services acts l).trust.contains m = false) :
    (Run.after step b.services acts k).Without m := by
  induction k, hik using Nat.le_induction with
  | base =>
      rw [Run.after_succ hreap, step, if_neg (Bool.eq_false_iff.mp hrunning)]
      exact without_reap (run_drained b acts i) (hrevoked i le_rfl (Nat.le_succ i))
  | succ k hik ih =>
      have hwithout := ih fun l hil hlk => hrevoked l hil (Nat.le_succ_of_le hlk)
      have hnow := hrevoked k (Nat.le_of_lt hik) (Nat.le_succ k)
      have hnext := hrevoked (k + 1) (by omega) le_rfl
      cases ha : acts[k]? with
      | none => rwa [Run.after_succ_none ha]
      | some a =>
          rw [Run.after_succ ha] at hnext ⊢
          -- the step goes through stores in none of which the peer is trusted
          have hmoves := Moves.step (T := fun store => store.contains m = false) a hnext
          refine (Moves.invariant (P := Barred m) hmoves (fun n n' hmove h => ?_)
            ⟨hwithout, hnow⟩).without
          refine ⟨h.without.move h.untrusted hmove, ?_⟩
          obtain hsame | hallowed := trust_move hmove
          · rw [hsame]
            exact h.untrusted
          · exact hallowed

/-- A revocation, the bridge's tick and a tick of the loop: the peer has no session. -/
theorem revoked_peer_has_no_session_b :
    (Run.after step bootA.services
      [(plainEnv, .revokeTrust "b" none), (plainEnv, .bridge true), (plainEnv, .tick)] 3).Without "b" :=
  revoked_peer_has_no_session (i := 1) bootA rfl (by decide) rfl
    fun l hl hl' => by
      obtain rfl | rfl | rfl : l = 1 ∨ l = 2 ∨ l = 3 := by omega
      all_goals rfl

end Services

end Synbad
