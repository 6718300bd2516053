import Synbad.Supervisor.AudioSteps

/-! # The audio subsystem over its life

What holds in every state of every run: the parts of the subsystem come and go together, a subsystem
that is down leaves nothing behind, no peer is thought to be dialled without being dialled, and the
peers are dialled from one side only.

Each of the four is an invariant of the moves, so its proof goes through the moves once and says
nothing about how a step is made of them. `Wired` is the first: the handle, the task, the dials and
the listener all carry the number of one bring-up, and without a handle there is nothing
(`Wired.down`), which gives `audio_subsystem_wired`. `Counted` keeps the books on a peer's dials: a
peer that is held to be in flight has a dial whose end is still to be heard of, and the dials under
way exceed the errors about the peer by one at most (`dials_accounted`). `OneSided` says that a
machine dials larger ids only, so of two machines at most one dials the other, however the steps of
both interleave (`one_side_dials`). -/

namespace Synbad

open Audio

namespace Services

variable {env : ServicesEnv} {n n' : Services} {T : TrustedPeerStore → Prop}

/-! ## The parts hang together -/

/-- **The subsystem is one**: its handle, its task, what dials and listeners are given and the bridge
that runs all carry one number, and when there is none, nothing of it is left. -/
structure Wired (n : Services) : Prop where
  audioTask : n.audioTask = n.audio
  dialDeps : n.audioDialDeps = n.audio
  bridge : n.bridge.map BridgeTask.number = n.audio
  listener : ∀ l ∈ n.audioListener, n.audio = some l.deps
  dials : ∀ d ∈ n.audioTasks, n.audio = some d.bridge
  numbered : ∀ k ∈ n.audio, k < n.bridges
  served : n.signals ≠ [] → n.audioListener.isSome
  live : n.audio = none → n.audioLive = ∅
  inflight : n.audio = none → n.audioInflight = ∅
  backoff : n.audio = none → ∀ p, n.audioBackoff p = none
  outcomes : n.audio = none → n.audioDialDone = []

namespace Wired

/-- A subsystem that is torn down leaves nothing that would have to be wired. -/
theorem teardown (n : Services) : (n.teardownAudioSubsystem env).Wired where
  audioTask := rfl
  dialDeps := rfl
  bridge := rfl
  listener := nofun
  dials := nofun
  numbered := nofun
  served h := absurd rfl h
  live _ := rfl
  inflight _ := rfl
  backoff _ _ := rfl
  outcomes _ := rfl

/-- Bringing a subsystem up where there was none leaves it one, if the listener is given the new
bridge or there is none. -/
theorem bringUp (h : n.Wired) (down : n.audio = none) {listener : Option (ListenerTask ℕ)}
    (deps : ∀ l ∈ listener, l.deps = n.bridges) : (n.bringUp listener).Wired where
  audioTask := rfl
  dialDeps := rfl
  bridge := rfl
  listener l hl := congrArg some (deps l hl).symm
  dials d hd := by
    have hnone := h.dials d hd
    rw [down] at hnone
    cases hnone
  numbered k hk := by
    cases hk
    exact Nat.lt_succ_self _
  served h := absurd rfl h
  live hnone := nomatch hnone
  inflight hnone := nomatch hnone
  backoff hnone := nomatch hnone
  outcomes hnone := nomatch hnone

/-- The subsystem stays one when its bridge goes on under its number. -/
theorem withBridge (h : n.Wired) {t t' : BridgeTask} (ht : n.bridge = some t)
    (hnumber : t'.number = t.number) : (n.withBridge t').Wired :=
  { h with
    bridge := by
      have hbridge := h.bridge
      rw [ht, Option.map_some, ← hnumber] at hbridge
      exact hbridge }

/-- The subsystem stays one when a dial goes on with the bridge it was given. -/
theorem withDial (h : n.Wired) {i : ℕ} {d d' : Dial} (hd : n.audioTasks[i]? = some d)
    (hbridge : d'.bridge = d.bridge) : (n.withDial i d').Wired :=
  { h with
    dials := fun x hx => by
      cases List.mem_or_eq_of_mem_set hx with
      | inl hx => exact h.dials x hx
      | inr hx =>
          rw [hx, hbridge]
          exact h.dials d (List.mem_of_getElem? hd) }

/-- A dial is given the bridge there is. -/
theorem dialAudioOne (h : n.Wired) (peer : DiscoveredPeer) : (n.dialAudioOne env peer).Wired := by
  obtain heq | ⟨bridge, gates, heq⟩ := dialAudioOne_cases env n peer
  · rwa [heq]
  · rw [heq]
    have haudio : n.audio = some bridge := h.dialDeps.symm.trans gates.deps
    exact
      { h with
        dials := fun d hd => by
          obtain ⟨hd, -⟩ := List.mem_filter.mp hd
          obtain hd | hd := List.mem_append.mp hd
          · exact h.dials d hd
          · rw [List.mem_singleton.mp hd]
            exact haudio
        inflight := fun hnone => by cases haudio.symm.trans hnone }

/-- A dial that takes a step keeps its bridge. -/
theorem stepDial (h : n.Wired) (i : ℕ) (move : DialMove) : (n.stepDial i move).Wired := by
  obtain heq | ⟨d, hd, heq⟩ := stepDial_cases n i move
  · rwa [heq]
  · obtain heq | ⟨heq, -⟩ | ⟨t, trusted, opening, ht, -, -, heq⟩ | ⟨outcome, -, heq⟩ := heq
    · rw [heq]
      exact h.withDial hd (Dial.Continues.advance n.hex n.trust d move).bridge
    · rw [heq]
      exact h.withDial hd rfl
    · rw [heq]
      refine Wired.withDial (h.withBridge ht ?_) hd ?_
      · rfl
      · rfl
    · rw [heq]
      have haudio := h.dials d (List.mem_of_getElem? hd)
      have hfinished : (n.withDial i { d with stage := .finished }).Wired := h.withDial hd rfl
      exact { hfinished with outcomes := fun hnone => by cases haudio.symm.trans hnone }

/-- A command goes to the bridge there is, or nowhere. -/
theorem trySend (h : n.Wired) (c : AudioCommand) : (n.trySend c).Wired := by
  obtain heq | ⟨t, ht, -, heq⟩ := trySend_cases n c
  · rwa [heq]
  · rw [heq]
    exact h.withBridge ht rfl

/-- The outcome of a dial is taken off its channel. -/
theorem takeDialDone (h : n.Wired) : (n.takeDialDone env).Wired := by
  obtain heq | ⟨outcome, rest, backoff, hdone, heq⟩ := takeDialDone_cases env n
  · rwa [heq]
  · rw [heq]
    -- there is an outcome, so the subsystem is up
    have hup : n.audio ≠ none := fun hnone => by cases hdone.symm.trans (h.outcomes hnone)
    exact
      { h with
        inflight := fun hnone => absurd hnone hup
        backoff := fun hnone => absurd hnone hup
        outcomes := fun hnone => absurd hnone hup }

/-- A notice of the bridge is taken off its channel. -/
theorem takeAudioEvent (h : n.Wired) : (n.takeAudioEvent env).Wired := by
  obtain heq | ⟨t, e, rest, backoff, told, haudio, ht, -, -, heq⟩ := takeAudioEvent_cases env n
  · rwa [heq]
  · rw [heq]
    have hup : n.audio ≠ none := fun hnone => by
      rw [hnone] at haudio
      cases haudio
    have hbridge : (n.withBridge { t with events := rest }).Wired := h.withBridge ht rfl
    exact
      { hbridge with
        live := fun hnone => absurd hnone hup
        inflight := fun hnone => absurd hnone hup
        backoff := fun hnone => absurd hnone hup }

/-- An accepted connection is given the bridge of its listener. -/
theorem accept (h : n.Wired) : n.accept.Wired := by
  unfold Services.accept
  split
  · exact h
  · next hlistener =>
      dsimp only
      split
      · rw [not_or] at hlistener
        exact
          { h with
            served := fun _ =>
              Option.isSome_iff_ne_none.mpr fun hnone => hlistener.2 (by rw [hnone]; rfl) }
      · exact h

/-- The connections being served change, but not whether there are any. -/
theorem withSignals (h : n.Wired) {signals : List SignalStage}
    (hnil : signals ≠ [] → n.signals ≠ []) : Wired { n with signals := signals } :=
  { h with served := fun hne => h.served (hnil hne) }

/-- An accepted connection that takes a step keeps its bridge. -/
theorem stepSignal (h : n.Wired) (i : ℕ) (move : SignalMove) : (n.stepSignal i move).Wired := by
  have hset : ∀ s, n.signals.set i s ≠ [] → n.signals ≠ [] := fun s hne => by
    simpa using hne
  unfold Services.stepSignal
  split
  · exact h
  · split
    · split
      · exact h.withSignals (hset _)
      · next t ht =>
          split_ifs
          · exact h.withSignals (hset _)
          · refine Wired.withSignals (h.withBridge ht ?_) (hset _)
            rfl
          · exact h
    · exact h.withSignals (hset _)

/-- An iteration of the bridge keeps its number. -/
theorem stepBridge (h : n.Wired) (reap : Bool) : (n.stepBridge reap).Wired := by
  unfold Services.stepBridge
  split
  · exact h
  · next t ht =>
      split
      · exact h.withBridge ht rfl
      · exact h.withBridge ht rfl
      · exact h

/-- What a driver reports keeps the bridge's number. -/
theorem stepDriver (h : n.Wired) (peer : String) (report : DriverReport) :
    (n.stepDriver peer report).Wired := by
  unfold Services.stepDriver
  split
  · exact h
  · next t ht =>
      split
      · exact h
      · split
        · exact h
        · exact h.withBridge ht rfl

/-- **Every move keeps the subsystem one**, bringing it up and tearing it down included. -/
theorem move (step : Move env T n n') (h : n.Wired) : n'.Wired := by
  cases step with
  | aside => exact { h with }
  | trust => exact { h with }
  | emit => exact { h with }
  | bringUp listener down deps => exact h.bringUp down deps
  | teardown => exact .teardown n
  | dial peer => exact h.dialAudioOne peer
  | gc => exact { h with dials := fun d hd => h.dials d (List.mem_filter.mp hd).1 }
  -- what is forgotten is never more than there was
  | forget live sub backoff earlier =>
      exact
        { h with
          live := fun hnone => Finset.subset_empty.mp (h.live hnone ▸ sub)
          backoff := fun hnone p => earlier p (h.backoff hnone p) }
  | dialDone => exact h.takeDialDone
  | audioEvent => exact h.takeAudioEvent
  | send c => exact h.trySend c
  | stepDial i move => exact h.stepDial i move
  -- a listener that is bound dials for the bridge there is
  | listener l bound =>
      exact
        { h with
          listener := fun t ht => by
            obtain hdeps | ⟨t', ht', hdeps⟩ := bound t ht
            · exact h.dialDeps.symm.trans hdeps
            · exact hdeps ▸ h.listener t' ht'
          served := fun hne => absurd rfl hne }
  | accept => exact h.accept
  | stepSignal i move => exact h.stepSignal i move
  | bridge reap => exact h.stepBridge reap
  | driver peer report => exact h.stepDriver peer report
  | bridgeDies =>
      refine { h with bridge := ?_ }
      rw [Option.map_map]
      exact h.bridge

end Wired

/-- As the supervisor is built, there is no subsystem. -/
theorem built_wired (b : Boot) :
    (built b.hex b.env b.machineId b.fingerprint b.config b.headHash b.trust b.userStopped).Wired where
  audioTask := rfl
  dialDeps := rfl
  bridge := rfl
  listener := nofun
  dials := nofun
  numbered := nofun
  served h := absurd rfl h
  live _ := rfl
  inflight _ := rfl
  backoff _ _ := rfl
  outcomes _ := rfl

/-- The subsystem is one in every state of every run. -/
theorem run_wired (b : Boot) (acts : List (ServicesEnv × ServicesInput)) (k : ℕ) :
    Wired (Run.after step b.services acts k) :=
  run_invariant b (built_wired b) (fun _ _ _ step h => Wired.move step h) acts k

/-- Nothing is left of a subsystem: no task, dial, connection, outcome, live peer or backoff. -/
structure Down (n : Services) : Prop where
  audioTask : n.audioTask = none
  bridge : n.bridge = none
  listener : n.audioListener = none
  signals : n.signals = []
  dials : n.audioTasks = []
  outcomes : n.audioDialDone = []
  live : n.audioLive = ∅
  inflight : n.audioInflight = ∅
  backoff : ∀ p, n.audioBackoff p = none

/-- Without a handle there is nothing of a subsystem at all. -/
theorem Wired.down {n : Services} (h : n.Wired) (hnone : n.audio = none) : n.Down where
  audioTask := h.audioTask.trans hnone
  bridge := by
    have hbridge := h.bridge
    rwa [hnone, Option.map_eq_none_iff] at hbridge
  listener := by
    refine Option.eq_none_iff_forall_not_mem.mpr fun l hl => ?_
    have hdeps := h.listener l hl
    rw [hnone] at hdeps
    cases hdeps
  signals := by
    by_contra hsignals
    obtain ⟨l, hl⟩ := Option.isSome_iff_exists.mp (h.served hsignals)
    have hdeps := h.listener l hl
    rw [hnone] at hdeps
    cases hdeps
  dials := by
    refine List.eq_nil_iff_forall_not_mem.mpr fun d hd => ?_
    have hbridge := h.dials d hd
    rw [hnone] at hbridge
    cases hbridge
  outcomes := h.outcomes hnone
  live := h.live hnone
  inflight := h.inflight hnone
  backoff := h.backoff hnone

/-- Everything there is of a subsystem belongs to the bridge of one bring-up. -/
structure Up (n : Services) (b : BridgeTask) : Prop where
  bridge : n.bridge = some b
  audioTask : n.audioTask = some b.number
  listener : ∀ l ∈ n.audioListener, l.deps = b.number
  dials : ∀ d ∈ n.audioTasks, d.bridge = b.number

/-- **The audio subsystem is one in every state of every run**: what there is of it, the task, the dials
and the listener, belongs to the bridge that runs, and of one that is down nothing is left. -/
theorem audio_subsystem_wired (b : Boot) (acts : List (ServicesEnv × ServicesInput)) (k : ℕ) :
    (Run.after step b.services acts k).Down ∨ ∃ bridge, (Run.after step b.services acts k).Up bridge := by
  have h := run_wired b acts k
  cases haudio : (Run.after step b.services acts k).audio with
  | none => exact Or.inl (h.down haudio)
  | some number =>
      have hbridge := h.bridge
      rw [haudio] at hbridge
      obtain ⟨bridge, hsome, rfl⟩ := Option.map_eq_some_iff.mp hbridge
      refine Or.inr ⟨bridge, hsome, h.audioTask.trans haudio, fun l hl => ?_, fun d hd => ?_⟩
      · have hdeps := h.listener l hl
        rw [haudio] at hdeps
        exact (Option.some.inj hdeps).symm
      · have hdial := h.dials d hd
        rw [haudio] at hdial
        exact (Option.some.inj hdial).symm

/-! ## Dials under way -/

/-- A dial to the peer that has not reported yet. -/
def dialsTo (p : String) (d : Dial) : Bool := d.peer.machineId == p && !d.stage.isFinished

/-- The dials to a peer whose end the loop has not heard of. -/
def pending (n : Services) (p : String) : ℕ :=
  n.audioTasks.countP (dialsTo p) + n.audioDialDone.countP fun o => o.peer == p

/-- How often an error about the peer has been handled. -/
def complaints (n : Services) (p : String) : ℕ := n.events.countP fun e => e.complaint == some p

/-- **The books on a peer's dials**: what is in flight is under way, and no more dials are under way
than errors were handled, and one. -/
structure Counted (p : String) (n : Services) : Prop where
  reports : ∀ d ∈ n.audioTasks, d.Reports
  dialling : p ∈ n.audioInflight → 0 < n.pending p
  bounded : n.pending p + (if p ∈ n.audioInflight then 0 else 1) ≤ n.complaints p + 1

namespace Counted

variable {p : String}

/-- A step that changes nothing the books are about keeps them. -/
theorem same (h : n.Counted p) (htasks : n'.audioTasks = n.audioTasks)
    (hdone : n'.audioDialDone = n.audioDialDone) (hinflight : n'.audioInflight = n.audioInflight)
    (hevents : n'.complaints p = n.complaints p) : n'.Counted p := by
  have hpending : n'.pending p = n.pending p := by rw [pending, htasks, hdone, pending]
  exact ⟨htasks ▸ h.reports, by rw [hinflight, hpending]; exact h.dialling,
    by rw [hinflight, hpending, hevents]; exact h.bounded⟩

/-- Telling something adds to the complaints about a peer if it is one. -/
theorem complaints_emit (n : Services) (e : ServicesEvent) (p : String) :
    (n.emit e).complaints p = n.complaints p + if e.complaint = some p then 1 else 0 := by
  unfold complaints emit
  rw [List.countP_append, List.countP_singleton]
  simp only [beq_iff_eq]

/-- Dropping the tasks that have ended changes no dial that is under way. -/
theorem pending_gcAudioTasks (n : Services) (p : String) : n.gcAudioTasks.pending p = n.pending p := by
  unfold pending gcAudioTasks
  dsimp only
  rw [List.countP_filter]
  congr 2
  funext d
  unfold dialsTo
  cases d.stage.isFinished <;> simp

/-- Dropping the tasks that have ended keeps the count. -/
theorem gc (h : n.Counted p) : n.gcAudioTasks.Counted p where
  reports d hd := h.reports d (List.mem_filter.mp hd).1
  dialling := by
    rw [pending_gcAudioTasks]
    exact h.dialling
  bounded := by
    rw [pending_gcAudioTasks]
    exact h.bounded

/-- A dial that is spawned is one more under way to its peer. -/
theorem pending_dialled (n : Services) (peer : DiscoveredPeer) (bridge : ℕ) (p : String) :
    (n.dialled peer bridge).pending p =
      n.pending p + if peer.machineId = p then 1 else 0 := by
  unfold pending dialled
  dsimp only
  rw [List.countP_append, List.countP_singleton]
  simp only [dialsTo, DialStage.isFinished, Bool.not_false, Bool.and_true, beq_iff_eq]
  omega

/-- A dial that is spawned is counted, as its peer was not being dialled. -/
theorem dialled (h : n.Counted p) {peer : DiscoveredPeer} (hnot : peer.machineId ∉ n.audioInflight)
    (bridge : ℕ) : (n.dialled peer bridge).Counted p where
  reports d hd := by
    obtain hd | hd := List.mem_append.mp hd
    · exact h.reports d hd
    · rw [List.mem_singleton.mp hd]
      exact nofun
  dialling hp := by
    rw [pending_dialled]
    split_ifs with hpeer
    · exact Nat.succ_pos _
    · exact h.dialling ((Finset.mem_insert.mp hp).resolve_left fun heq => hpeer heq.symm)
  bounded := by
    have hb := h.bounded
    have hcomplaints : (n.dialled peer bridge).complaints p = n.complaints p := rfl
    rw [pending_dialled, hcomplaints]
    by_cases hpeer : peer.machineId = p
    · subst hpeer
      have hself : peer.machineId ∈ (n.dialled peer bridge).audioInflight :=
        Finset.mem_insert_self ..
      rw [if_neg hnot] at hb
      rw [if_pos rfl, if_pos hself]
      exact hb
    · have hmem : p ∈ (n.dialled peer bridge).audioInflight ↔ p ∈ n.audioInflight := by
        unfold Services.dialled
        rw [Finset.mem_insert, or_iff_right fun heq => hpeer heq.symm]
      rw [if_neg hpeer, Nat.add_zero, if_congr hmem rfl rfl]
      exact hb

/-- When a dial is put in the place of another, the count of those that are pending changes by the
two. -/
theorem pending_withDial {i : ℕ} {d : Dial} (hd : n.audioTasks[i]? = some d) (d' : Dial)
    (p : String) :
    (n.withDial i d').pending p + (if dialsTo p d then 1 else 0) =
      n.pending p + if dialsTo p d' then 1 else 0 := by
  obtain ⟨hi, hget⟩ := List.getElem?_eq_some_iff.mp hd
  unfold pending withDial
  dsimp only
  rw [List.countP_set hi, hget]
  have hle : (if dialsTo p d then 1 else 0) ≤ n.audioTasks.countP (dialsTo p) := by
    rw [← hget]
    exact List.boole_getElem_le_countP hi
  omega

/-- A dial that goes on reports as all others do. -/
theorem reports_withDial (h : n.Counted p) {i : ℕ} {d d' : Dial} (hd : n.audioTasks[i]? = some d)
    (hreports : d.Reports → d'.Reports) : ∀ x ∈ (n.withDial i d').audioTasks, x.Reports := by
  intro x hx
  obtain hx | rfl := List.mem_or_eq_of_mem_set hx
  · exact h.reports x hx
  · exact hreports (h.reports d (List.mem_of_getElem? hd))

/-- A dial that goes on is counted as before. -/
theorem withDial (h : n.Counted p) {i : ℕ} {d d' : Dial} (hd : n.audioTasks[i]? = some d)
    (goesOn : d.Continues d') : (n.withDial i d').Counted p := by
  have hpending : (n.withDial i d').pending p = n.pending p := by
    have hcount := pending_withDial hd d' p
    rw [show dialsTo p d' = dialsTo p d by rw [dialsTo, goesOn.peer, goesOn.isFinished, dialsTo]]
      at hcount
    exact Nat.add_right_cancel hcount
  exact ⟨h.reports_withDial hd goesOn.reports, by rw [hpending]; exact h.dialling,
    by rw [hpending]; exact h.bounded⟩

/-- A report moves a dial from the tasks to the outcomes. -/
theorem report (h : n.Counted p) {i : ℕ} {d : Dial} (hd : n.audioTasks[i]? = some d)
    {outcome : AudioDialOutcome} (hstage : d.stage = .reporting outcome) :
    Counted p
      { n.withDial i { d with stage := .finished } with
        audioDialDone := n.audioDialDone ++ [outcome] } := by
  have hpeer : outcome.peer = d.peer.machineId :=
    h.reports d (List.mem_of_getElem? hd) outcome hstage
  have hcount := pending_withDial hd { d with stage := .finished } p
  have hbefore : dialsTo p d = (d.peer.machineId == p) := by
    rw [dialsTo, hstage]
    exact Bool.and_true _
  have hafter : dialsTo p { d with stage := .finished } = false := Bool.and_false _
  have hpending : pending { n.withDial i { d with stage := .finished } with
      audioDialDone := n.audioDialDone ++ [outcome] } p = n.pending p := by
    rw [hbefore, hafter] at hcount
    unfold pending at hcount ⊢
    dsimp only [Services.withDial] at hcount ⊢
    rw [List.countP_append, List.countP_singleton, hpeer]
    simp only [Bool.false_eq_true, if_false] at hcount
    omega
  refine ⟨h.reports_withDial hd fun _ => nofun, ?_, ?_⟩
  · rw [hpending]
    exact h.dialling
  · rw [hpending]
    exact h.bounded

/-- A step of a dial keeps the count: what it reports at its end is one outcome. -/
theorem stepDial (h : n.Counted p) (i : ℕ) (move : DialMove) : (n.stepDial i move).Counted p := by
  obtain heq | ⟨d, hd, heq⟩ := stepDial_cases n i move
  · rwa [heq]
  · obtain heq | ⟨heq, trusted, hstage⟩ | ⟨t, trusted, opening, -, -, hstage, heq⟩ |
      ⟨outcome, hstage, heq⟩ := heq
    · rw [heq]
      exact h.withDial hd (.advance n.hex n.trust d move)
    · rw [heq]
      exact h.withDial hd (.failed (by rw [hstage]; rfl) _)
    · rw [heq]
      have hreport : d.Continues { d with stage := .reporting (.ok d.peer.machineId) } :=
        ⟨rfl, rfl, by rw [hstage]; rfl, fun _ o ho => by cases ho; rfl⟩
      exact (h.withDial hd hreport).same rfl rfl rfl rfl
    · rw [heq]
      exact h.report hd hstage

/-- The loop hears of the end of a dial. -/
theorem takeDialDone (h : n.Counted p) : (n.takeDialDone env).Counted p := by
  obtain heq | ⟨outcome, rest, backoff, hdone, heq⟩ := takeDialDone_cases env n
  · rwa [heq]
  · rw [heq]
    have hpending : n.pending p = n.audioTasks.countP (dialsTo p) +
        ((rest.countP fun o => o.peer == p) + if outcome.peer = p then 1 else 0) := by
      rw [pending, hdone, List.countP_cons]
      simp only [beq_iff_eq]
    have hb := h.bounded
    have hd := h.dialling
    refine ⟨h.reports, fun hp => ?_, ?_⟩
    · obtain ⟨hne, hp⟩ := Finset.mem_erase.mp hp
      have hpos := hd hp
      rw [hpending, if_neg (Ne.symm hne)] at hpos
      exact hpos
    · show n.audioTasks.countP (dialsTo p) + (rest.countP fun o => o.peer == p) +
        (if p ∈ n.audioInflight.erase outcome.peer then 0 else 1) ≤ n.complaints p + 1
      by_cases hpeer : outcome.peer = p
      · rw [if_pos hpeer] at hpending
        rw [hpeer, if_neg fun hp => (Finset.mem_erase.mp hp).1 rfl]
        omega
      · rw [if_neg hpeer] at hpending
        have hmem : p ∈ n.audioInflight.erase outcome.peer ↔ p ∈ n.audioInflight := by
          rw [Finset.mem_erase, and_iff_right (Ne.symm hpeer)]
        rw [if_congr hmem rfl rfl]
        omega

/-- The loop hears an event of the bridge: an error counts. -/
theorem takeAudioEvent (h : n.Counted p) : (n.takeAudioEvent env).Counted p := by
  obtain heq | ⟨t, e, rest, backoff, told, -, -, -, htold, heq⟩ := takeAudioEvent_cases env n
  · rwa [heq]
  · rw [heq]
    have hcomplaints : (n.events ++ [told]).countP (fun e => e.complaint == some p) =
        n.complaints p + if complaintOf e = some p then 1 else 0 := by
      rw [List.countP_append, List.countP_singleton, htold]
      simp only [beq_iff_eq]
      rfl
    have hb := h.bounded
    -- only an error about the peer itself takes it out of flight
    have hmem : complaintOf e ≠ some p →
        (p ∈ hearInflight n.audioInflight e ↔ p ∈ n.audioInflight) := by
      intro hne
      unfold hearInflight
      split
      · next peer message =>
          rw [Finset.mem_erase]
          exact and_iff_right fun heq => hne (by rw [heq]; rfl)
      · rfl
    have hsub : p ∈ hearInflight n.audioInflight e → p ∈ n.audioInflight := by
      intro hp
      unfold hearInflight at hp
      split at hp
      · exact Finset.mem_of_mem_erase hp
      · exact hp
    refine ⟨h.reports, fun hp => h.dialling (hsub hp), ?_⟩
    show n.pending p + (if p ∈ hearInflight n.audioInflight e then 0 else 1) ≤
      (n.events ++ [told]).countP (fun e => e.complaint == some p) + 1
    rw [hcomplaints]
    by_cases hne : complaintOf e = some p
    · rw [if_pos hne]
      split_ifs at hb ⊢ <;> omega
    · rw [if_neg hne, if_congr (hmem hne) rfl rfl]
      exact hb

/-- **Every move keeps the books** on the dials to a peer. -/
theorem move (step : Move env T n n') (h : n.Counted p) : n'.Counted p := by
  cases step with
  | aside => exact h.same rfl rfl rfl rfl
  | trust => exact h.same rfl rfl rfl rfl
  | emit e quiet =>
      -- what is told here is no complaint, so the count is the same
      refine h.same rfl rfl rfl ?_
      rw [complaints_emit, quiet, if_neg (by simp), Nat.add_zero]
  | bringUp => exact h.same rfl rfl rfl rfl
  | teardown => exact ⟨nofun, fun hp => absurd hp (Finset.notMem_empty p), Nat.succ_le_succ (Nat.zero_le _)⟩
  | dial peer =>
      obtain heq | ⟨bridge, gates, heq⟩ := dialAudioOne_cases env n peer
      · rwa [heq]
      -- a dial is counted from here to its outcome
      · rw [heq]
        exact (h.dialled gates.notInflight bridge).gc
  | gc => exact h.gc
  | forget => exact h.same rfl rfl rfl rfl
  | dialDone => exact h.takeDialDone
  | audioEvent => exact h.takeAudioEvent
  | send c =>
      obtain heq | ⟨t, -, -, heq⟩ := trySend_cases n c
      · rwa [heq]
      · rw [heq]
        exact h.same rfl rfl rfl rfl
  | stepDial i move => exact h.stepDial i move
  | listener => exact h.same rfl rfl rfl rfl
  | accept =>
      obtain ⟨signals, bridge, heq⟩ := accept_eq n
      rw [heq]
      exact h.same rfl rfl rfl rfl
  | stepSignal i move =>
      obtain ⟨signals, bridge, heq⟩ := stepSignal_eq n i move
      rw [heq]
      exact h.same rfl rfl rfl rfl
  | bridge reap =>
      obtain ⟨bridge, heq⟩ := stepBridge_eq n reap
      rw [heq]
      exact h.same rfl rfl rfl rfl
  | driver peer report =>
      obtain ⟨bridge, heq⟩ := stepDriver_eq n peer report
      rw [heq]
      exact h.same rfl rfl rfl rfl
  | bridgeDies => exact h.same rfl rfl rfl rfl

end Counted

/-- **Nobody is forgotten in flight.** In every state of every run a peer the loop holds to be in flight
has a dial under way whose end the loop is still to hear of; and at most one dial to a peer is under way,
and one more for every error about the peer that has been handled. -/
theorem dials_accounted (b : Boot) (acts : List (ServicesEnv × ServicesInput)) (k : ℕ) (p : String) :
    (p ∈ (Run.after step b.services acts k).audioInflight →
      0 < (Run.after step b.services acts k).pending p) ∧
    (Run.after step b.services acts k).pending p ≤
      (Run.after step b.services acts k).complaints p + 1 := by
  have h : Counted p (Run.after step b.services acts k) := by
    refine run_invariant b ?_ (fun env m m' step h => Counted.move step h) acts k
    exact ⟨nofun, fun hp => absurd hp (Finset.notMem_empty p), Nat.succ_le_succ (Nat.zero_le _)⟩
  exact ⟨h.dialling, le_trans (Nat.le_add_right _ _) h.bounded⟩

/-! ## One side dials -/

/-- Every dial is to a machine with a larger id and a port. -/
structure OneSided (id : String) (n : Services) : Prop where
  machineId : n.machineId = id
  dials : ∀ d ∈ n.audioTasks, id < d.peer.machineId ∧ d.peer.audioPort ≠ 0

namespace OneSided

variable {id : String}

/-- A dial that goes on to the same peer keeps to one side. -/
theorem withDial (h : n.OneSided id) {i : ℕ} {d d' : Dial} (hd : n.audioTasks[i]? = some d)
    (hpeer : d'.peer = d.peer) : (n.withDial i d').OneSided id where
  machineId := h.machineId
  dials x hx := by
    obtain hx | rfl := List.mem_or_eq_of_mem_set hx
    · exact h.dials x hx
    · rw [hpeer]
      exact h.dials d (List.mem_of_getElem? hd)

/-- Every move keeps to one side: a dial is to a machine with a larger id. -/
theorem move (step : Move env T n n') (h : n.OneSided id) : n'.OneSided id := by
  cases step with
  | aside => exact ⟨h.machineId, h.dials⟩
  | trust => exact ⟨h.machineId, h.dials⟩
  | emit => exact ⟨h.machineId, h.dials⟩
  | bringUp => exact ⟨h.machineId, h.dials⟩
  | teardown => exact ⟨h.machineId, nofun⟩
  | dial peer =>
      obtain heq | ⟨bridge, gates, heq⟩ := dialAudioOne_cases env n peer
      · rwa [heq]
      · rw [heq]
        refine ⟨h.machineId, fun d hd => ?_⟩
        -- only this case adds a dial, and its gates say what is asked of it
        obtain hd | hd := List.mem_append.mp (List.mem_filter.mp hd).1
        · exact h.dials d hd
        · rw [List.mem_singleton.mp hd]
          exact ⟨h.machineId ▸ gates.larger, gates.port⟩
  | gc => exact ⟨h.machineId, fun d hd => h.dials d (List.mem_filter.mp hd).1⟩
  | forget => exact ⟨h.machineId, h.dials⟩
  | dialDone =>
      obtain heq | ⟨outcome, rest, backoff, -, heq⟩ := takeDialDone_cases env n
      · rwa [heq]
      · rw [heq]
        exact ⟨h.machineId, h.dials⟩
  | audioEvent =>
      obtain heq | ⟨t, e, rest, backoff, told, -, -, -, -, heq⟩ := takeAudioEvent_cases env n
      · rwa [heq]
      · rw [heq]
        exact ⟨h.machineId, h.dials⟩
  | send c =>
      obtain heq | ⟨t, -, -, heq⟩ := trySend_cases n c
      · rwa [heq]
      · rw [heq]
        exact ⟨h.machineId, h.dials⟩
  | stepDial i move =>
      obtain heq | ⟨d, hd, heq⟩ := stepDial_cases n i move
      · rwa [heq]
      -- however the dial goes on, it is to the peer it was to
      · obtain heq | ⟨heq, -⟩ | ⟨t, trusted, opening, -, -, -, heq⟩ | ⟨outcome, -, heq⟩ := heq
        · rw [heq]
          exact h.withDial hd (Dial.Continues.advance n.hex n.trust d move).peer
        · rw [heq]
          exact h.withDial hd rfl
        · rw [heq]
          have hreport : (n.withDial i { d with
              stage := .reporting (.ok d.peer.machineId) }).OneSided id := h.withDial hd rfl
          exact ⟨h.machineId, hreport.dials⟩
        · rw [heq]
          have hend : (n.withDial i { d with stage := .finished }).OneSided id := h.withDial hd rfl
          exact ⟨h.machineId, hend.dials⟩
  | listener => exact ⟨h.machineId, h.dials⟩
  | accept =>
      obtain ⟨signals, bridge, heq⟩ := accept_eq n
      rw [heq]
      exact ⟨h.machineId, h.dials⟩
  | stepSignal i move =>
      obtain ⟨signals, bridge, heq⟩ := stepSignal_eq n i move
      rw [heq]
      exact ⟨h.machineId, h.dials⟩
  | bridge reap =>
      obtain ⟨bridge, heq⟩ := stepBridge_eq n reap
      rw [heq]
      exact ⟨h.machineId, h.dials⟩
  | driver peer report =>
      obtain ⟨bridge, heq⟩ := stepDriver_eq n peer report
      rw [heq]
      exact ⟨h.machineId, h.dials⟩
  | bridgeDies => exact ⟨h.machineId, h.dials⟩

end OneSided

/-- In every run all dials are to machines with larger ids. -/
theorem oneSided (b : Boot) (acts : List (ServicesEnv × ServicesInput)) (k : ℕ) :
    OneSided b.machineId (Run.after step b.services acts k) :=
  run_invariant b ⟨rfl, nofun⟩ (fun _ _ _ step h => OneSided.move step h) acts k

/-- **No glare.** Of two machines at most one has dials to the other, whatever both go through and
however their steps interleave, and none has a dial to itself. -/
theorem one_side_dials (b₁ b₂ : Boot) (acts₁ acts₂ : List (ServicesEnv × ServicesInput)) (k₁ k₂ : ℕ) :
    (∀ d ∈ (Run.after step b₁.services acts₁ k₁).audioTasks, d.peer.machineId ≠ b₂.machineId) ∨
      ∀ d ∈ (Run.after step b₂.services acts₂ k₂).audioTasks, d.peer.machineId ≠ b₁.machineId := by
  by_cases hlt : b₁.machineId < b₂.machineId
  · refine .inr fun d hd heq => ?_
    have hlt' := ((oneSided b₂ acts₂ k₂).dials d hd).1
    exact lt_asymm hlt (heq ▸ hlt')
  · refine .inl fun d hd heq => ?_
    have hlt' := ((oneSided b₁ acts₁ k₁).dials d hd).1
    exact hlt (heq ▸ hlt')

end Services

end Synbad
