import Synbad.Lib.Run
import Synbad.Gui.EditBuffer
import Synbad.Supervisor.Announced
import Mathlib.Tactic.IntervalCases

/-! # The window, the threads and the daemon

The edited document, the two threads that connect it with the daemon, and the daemon. The event thread
fetches the document when it connects and again on every `ConfigChanged`; the command thread delivers
what the window has sent, or drops it. The window clears its marks when it sends a document, before it
knows what becomes of it, and so what nobody announces to it never reaches it.

`Informed` is the invariant: while the event thread follows the events, and without news from the
daemon, the window is aware of the daemon's document. Being aware covers the ways in which it may be
on its way: in the banner, among the updates that are still to be taken, or behind edits and pushes of
the window that will be answered by an announcement. `Drifts` is the list of steps that break it:
edits that are dropped by `Revert`, a push that is lost or refused, the last news not fetched, and a
document that is rolled back without being announced.

`never_drifts` says that in a run without such a step window and daemon have the same document
whenever nothing is left to do. The last section is the converse: after the first step that lets it
drift the session may come to rest with two documents (`drift_follows`). -/

namespace Synbad

/-! ## The buttons -/

namespace EditBuffer

/-- What is done in the window, by its user or by its timer. -/
inductive Action where
  /-- An edit of the layout or the settings, which waits for `Apply`. -/
  | edit (config : Config)
  /-- An edit of the audio settings. -/
  | editAudio (audio : AudioConfig)
  | apply
  | revert
  | connectAsClientTo (peer : DiscoveredPeer)
  | start
  | stop
  | restart
  /-- A command about peers, pairing or audio devices, which concerns no document. -/
  | other
  | drag (dragging : Bool)
  | reconcile (fresh : List MonitorInfo)

/-- An edit of the audio settings is sent at once and does not take part in `dirty`. -/
def editAudio (b : EditBuffer) (audio : AudioConfig) : EditBuffer :=
  { b with config := { b.config with audio := audio } }.send (.setAudioConfig audio)

/-- The button `Apply config`: the document is sent, and its marks are cleared before anything is
known of it. -/
def applyConfig (b : EditBuffer) : EditBuffer :=
  if b.connected && b.dirty then
    { b.send (.setConfig b.config) with dirty := false, pendingRemoteConfig := none }
  else b

/-- The button `Revert`: a document in the banner is taken, and without one the daemon is asked for
its status. -/
def revert (b : EditBuffer) : EditBuffer :=
  if b.dirty || b.pendingRemoteConfig.isSome then
    match b.pendingRemoteConfig with
    | some c => { b with dirty := false, config := c, pendingRemoteConfig := none }
    -- the daemon answers with its status, and the document stays as it was edited
    | none => { b with dirty := false }.send .refresh
  else b

/-- `connect_as_client_to`: the document is made that of a client of this peer and sent, and the Core
is started. -/
def connectAsClientTo (b : EditBuffer) (peer : DiscoveredPeer) : EditBuffer :=
  let port := if peer.corePort = 0 then b.config.port else peer.corePort
  let config :=
    { b.config with role := .client, serverAddress := some (hostPort peer.host port) }
  { b.send (.setConfig config) with
    config := config, dirty := false, pendingRemoteConfig := none }.send .start

/-- One action, as far as it is about the document and the commands. -/
def perform (b : EditBuffer) : Action → EditBuffer
  | .edit config => { b with config := config, dirty := true }
  | .editAudio audio => b.editAudio audio
  | .apply => b.applyConfig
  | .revert => b.revert
  | .connectAsClientTo peer => b.connectAsClientTo peer
  | .start => b.send .start
  | .stop => if b.connected then b.send .stop else b
  | .restart => if b.connected then b.send .restart else b
  | .other => b.send .other
  | .drag dragging => { b with dragging := dragging }
  | .reconcile fresh => b.reconcile fresh

end EditBuffer

/-! ## The threads -/

/-- The request that the command thread makes of a command, if it is one that the daemon's core
handles. -/
def Cmd.request : Cmd → Option Request
  | .start => some .start
  | .stop => some .stop
  | .restart => some .restart
  | .setConfig config => some (.setConfig config)
  | .refresh => some .getStatus
  | .setAudioConfig audio => some (.setAudioConfig audio)
  | .other => none

/-- How far the event thread has got with its connection. -/
inductive EventLink where
  | down
  /-- Events are buffered for it, from its subscription on. -/
  | subscribed
  /-- It has fetched the document, and has not told the window that it is connected. -/
  | fetched
  /-- It follows the events, one announcement after the other. -/
  | up
  deriving DecidableEq

/-- The document has been fetched since the subscription. -/
def EventLink.hasDocument : EventLink → Bool
  | .fetched => true
  | .up => true
  | _ => false

/-- The window, the threads with what is on its way between them, and the daemon. -/
structure GuiSession where
  gui : EditBuffer
  /-- What the threads have sent and the window has not drained. -/
  updates : List EditUpdate
  link : EventLink
  /-- The daemon still sends to the connection of the event thread. -/
  live : Bool
  /-- How many `ConfigChanged` the event thread has before it. -/
  news : ℕ
  daemon : Daemon

/-- What happens to a session, in any order. -/
inductive GuiInput where
  | act (a : EditBuffer.Action)
  /-- The window takes the oldest update. -/
  | drain
  /-- The command thread takes a command, and reaches the daemon or does not. -/
  | dispatch (delivered : Bool) (env : Env)
  /-- Anything else that happens to the daemon, a launch or a crash among it. -/
  | daemon (env : Env) (i : Input)
  | subscribe
  | fetch
  /-- The rest of `bootstrap`, at whose end the window is told that it is connected. -/
  | bootstrapped
  /-- `refetch_config` on the next `ConfigChanged`, which may fail and is not repeated then. -/
  | refetch (fetched : Bool)
  /-- The daemon ends the connection, and no more events come over it. -/
  | hangUp
  /-- The event thread finds its connection ended, or makes none. -/
  | giveUp
  | launching
  | trusted (peers : BTreeMap String TrustedPeer)

namespace GuiSession

/-- Send an update to the window, behind those it has not taken yet. -/
def tell (s : GuiSession) (u : EditUpdate) : GuiSession := { s with updates := s.updates ++ [u] }

/-- `drain_ipc`, for one update, the oldest. -/
def drain (s : GuiSession) : GuiSession :=
  match s.updates with
  | [] => s
  | u :: rest => { s with gui := s.gui.apply u, updates := rest }

/-- The daemon moves on, and its announcements go to the event thread. A process that ends hangs up. -/
def advance (s : GuiSession) (input : Env × Input) : GuiSession :=
  match s.daemon, s.daemon.step input with
  | .up d, .up d' =>
      -- also what is announced before the document is fetched is kept for the event thread
      { s with
        daemon := .up d'
        news := if s.live then s.news + (d'.announced - d.announced) else s.news }
  | _, daemon => { s with daemon := daemon, live := false }

/-- `command_loop`, for one command: it reaches the daemon, or is dropped. -/
def dispatch (s : GuiSession) (delivered : Bool) (env : Env) : GuiSession :=
  match s.gui.commands with
  | [] => s
  | cmd :: rest =>
      let s := { s with gui := { s.gui with commands := rest } }
      match cmd.request, delivered with
      -- whatever the reply is, it holds no document
      | some r, true => s.advance (env, .event (.request r))
      -- after five seconds without a daemon the command is dropped
      | _, _ => s

/-- `refetch_config`, and the update if it has succeeded; the announcement is used up either way. -/
def refetch (s : GuiSession) (fetched : Bool) : GuiSession :=
  if s.link = .up ∧ 0 < s.news then
    let s := { s with news := s.news - 1 }
    match fetched, s.daemon with
    | true, .up d => s.tell (.config d.config)
    -- the event is passed over
    | _, _ => s
  else s

/-- One step of the session, by what happens. -/
def step (s : GuiSession) : GuiInput → GuiSession
  | .act a => { s with gui := s.gui.perform a }
  | .drain => s.drain
  | .dispatch delivered env => s.dispatch delivered env
  | .daemon env i => s.advance (env, i)
  | .subscribe =>
      match s.link, s.daemon with
      | .down, .up _ => { s with link := .subscribed, live := true, news := 0 }
      | _, _ => s
  | .fetch =>
      match s.link, s.daemon with
      | .subscribed, .up d => { s with link := .fetched }.tell (.config d.config)
      | _, _ => s
  | .bootstrapped => if s.link = .fetched then { s with link := .up }.tell .connected else s
  | .refetch fetched => s.refetch fetched
  | .hangUp => { s with live := false }
  | .giveUp => { s with link := .down, live := false, news := 0 }.tell .disconnected
  | .launching => if s.link = .down then s.tell .launching else s
  | .trusted peers => s.tell (.trusted peers)

/-- A window that has been opened beside a daemon, running or not. -/
def opened (daemon : Daemon) (monitors : List MonitorInfo) : GuiSession where
  gui := ⟨false, Config.default, false, none, false, BTreeMap.empty, monitors, []⟩
  updates := []
  link := .down
  live := false
  news := 0
  daemon := daemon

/-- Nothing is left to do: the window is connected and shows neither edits nor a banner, and whatever has
been sent, announced or hung up has been taken up. -/
structure Quiescent (s : GuiSession) : Prop where
  connected : s.gui.connected = true
  clean : s.gui.dirty = false
  resolved : s.gui.pendingRemoteConfig = none
  commands : s.gui.commands = []
  updates : s.updates = []
  news : s.news = 0
  live : s.live = true

end GuiSession

/-! ## What keeps the window from drifting -/

/-- A command that sends the document to the daemon. -/
def Cmd.isPush : Cmd → Bool
  | .setConfig _ => true
  | .setAudioConfig _ => true
  | _ => false

/-- The document in an update, if it carries one. -/
def EditUpdate.document : EditUpdate → Option Config
  | .config c => some c
  | _ => none

/-- Whether the window is connected after an update, if it was so before or not. -/
def EditUpdate.connects (connected : Bool) : EditUpdate → Bool
  | .connected => true
  | .disconnected => false
  | .launching => false
  | _ => connected

/-- The last document among the updates, which is the one the window will have. -/
def queued (updates : List EditUpdate) : Option Config :=
  (updates.filterMap EditUpdate.document).getLast?

/-- The document that is shown in the banner, or else in the window, is this one; or there are edits that
are still to be applied, or one that is still to be sent. -/
def EditBuffer.Shows (b : EditBuffer) (c : Config) : Prop :=
  match b.pendingRemoteConfig with
  | some p => p = c
  | none => b.dirty = true ∨ b.commands.any Cmd.isPush = true ∨ b.config = c

namespace GuiSession

/-- The window shows this document, or is about to. -/
def Aware (s : GuiSession) (c : Config) : Prop :=
  match queued s.updates with
  | some q => q = c
  | none => s.gui.Shows c

/-- The window is connected once it has drained its updates. -/
def willConnect (s : GuiSession) : Bool := s.updates.foldl EditUpdate.connects s.gui.connected

/-- **The window is informed**: it is connected while the event thread follows the events, and without
news it is aware of the document of the daemon. -/
structure Informed (s : GuiSession) : Prop where
  connected : s.willConnect = true ↔ s.link = .up
  live : s.live = true →
    ∃ d, s.daemon = .up d ∧ (s.link.hasDocument = true → s.news = 0 → s.Aware d.config)

end GuiSession

namespace EditBuffer

variable {b : EditBuffer} {c : Config}

/-- With a banner it is the banner's document that is shown. -/
theorem shows_of_some {p : Config} (h : b.pendingRemoteConfig = some p) : b.Shows c ↔ p = c := by
  rw [Shows, h]

/-- Without a banner a document is shown if it is the window's, or covered by edits or by a push that
is to go out. -/
theorem shows_of_none (h : b.pendingRemoteConfig = none) :
    b.Shows c ↔ b.dirty = true ∨ b.commands.any Cmd.isPush = true ∨ b.config = c := by
  rw [Shows, h]

/-- An update without a document changes nothing of what is shown. -/
theorem shows_apply_of_none {u : EditUpdate} (h : u.document = none) :
    (b.apply u).Shows c ↔ b.Shows c := by
  cases u with
  | config q => cases h
  | _ => exact Iff.rfl

/-- A document is shown in the banner over edits, or in the window. -/
theorem shows_apply_config : (b.apply (.config c)).Shows c := by
  rw [apply]
  cases b.dirty with
  | true => rfl
  | false => exact Or.inr (Or.inr rfl)

/-- With nothing to be sent no other document is. -/
theorem eq_of_shows_apply {q : Config} (hcommands : b.commands = [])
    (h : (b.apply (.config q)).Shows c) : q = c := by
  rw [apply] at h
  cases hdirty : b.dirty with
  | true =>
      rw [if_pos hdirty] at h
      exact h
  | false =>
      rw [if_neg (by rw [hdirty]; exact Bool.false_ne_true)] at h
      obtain hedits | hpush | hsame := (shows_of_none rfl).mp h
      · have hedits' : b.dirty = true := hedits
        rw [hdirty] at hedits'
        cases hedits'
      · have hpush' : b.commands.any Cmd.isPush = true := hpush
        rw [hcommands] at hpush'
        cases hpush'
      · exact hsame

/-- An update from the daemon sends nothing. -/
theorem commands_apply (u : EditUpdate) : (b.apply u).commands = b.commands := by
  cases u with
  | config q =>
      rw [apply]
      split <;> rfl
  | _ => rfl

/-- An update connects or disconnects the window as it says. -/
theorem connected_apply (u : EditUpdate) : (b.apply u).connected = u.connects b.connected := by
  cases u with
  | config q =>
      rw [apply]
      split <;> rfl
  | _ => rfl

/-- One more command covers what was shown before, and perhaps more. -/
theorem Shows.send (h : b.Shows c) (cmd : Cmd) : (b.send cmd).Shows c := by
  cases hpending : b.pendingRemoteConfig with
  | some p => exact (shows_of_some (b := b.send cmd) hpending).mpr ((shows_of_some hpending).mp h)
  | none =>
      refine (shows_of_none (b := b.send cmd) hpending).mpr ?_
      show _ ∨ (b.commands ++ [cmd]).any Cmd.isPush = true ∨ _
      rw [List.any_append, Bool.or_eq_true]
      exact ((shows_of_none hpending).mp h).imp_right fun h => h.imp_left Or.inl

/-- A command more that is no push makes no difference. -/
theorem shows_send {cmd : Cmd} (hcmd : cmd.isPush = false) : (b.send cmd).Shows c ↔ b.Shows c := by
  have hany : (b.commands ++ [cmd]).any Cmd.isPush = b.commands.any Cmd.isPush := by
    rw [List.any_append, List.any_cons, hcmd, Bool.false_or, List.any_nil, Bool.or_false]
  unfold Shows send
  simp only [hany]

/-- What is being sent and not covered by a banner. -/
theorem shows_of_push (hpending : b.pendingRemoteConfig = none)
    (hpush : b.commands.any Cmd.isPush = true) : b.Shows c :=
  (shows_of_none hpending).mpr (Or.inr (Or.inl hpush))

/-- A push at the end of the commands is one that is to go out. -/
theorem any_isPush_append (cmds : List Cmd) {cmd : Cmd} (h : cmd.isPush = true) :
    (cmds ++ [cmd]).any Cmd.isPush = true := by
  simp [h]

/-- `Revert` without a banner only drops the marks, as its status brings no document. -/
theorem shows_revert_of_none (hpending : b.pendingRemoteConfig = none) :
    b.revert.Shows c ↔ { b with dirty := false }.Shows c := by
  unfold revert
  rw [hpending]
  cases hdirty : b.dirty with
  | true => exact shows_send rfl
  | false =>
      show b.Shows c ↔ _
      rw [← hdirty, ← hpending]

/-- After `Revert` a document is still shown that was shown before, if without a banner it is shown
without the marks. -/
theorem shows_revert (h : b.Shows c)
    (hrevert : b.pendingRemoteConfig = none → { b with dirty := false }.Shows c) :
    b.revert.Shows c := by
  cases hpending : b.pendingRemoteConfig with
  | none => exact (shows_revert_of_none hpending).mpr (hrevert hpending)
  | some p =>
      have hsame : p = c := (shows_of_some hpending).mp h
      unfold revert
      rw [hpending, Option.isSome_some, Bool.or_true, if_pos rfl]
      exact Or.inr (Or.inr hsame)

/-- A pass that changes the document sends it, so what was shown still is. -/
theorem shows_reconcile (h : b.Shows c) (fresh : List MonitorInfo) : (b.reconcile fresh).Shows c := by
  unfold reconcile
  split
  · exact h
  split
  · exact h
  · next hpending =>
    split
    · exact h
    · simp only
      split
      · refine shows_of_push ?_ (any_isPush_append _ rfl)
        exact Option.not_isSome_iff_eq_none.mp hpending
      · exact h

/-- **What is shown stays shown**, unless edits are dropped that covered another document. -/
theorem shows_perform {a : Action} (h : b.Shows c)
    (hrevert : a = .revert → b.pendingRemoteConfig = none → { b with dirty := false }.Shows c) :
    (b.perform a).Shows c := by
  cases a with
  | edit config =>
      cases hpending : b.pendingRemoteConfig with
      | some p =>
          -- a pending configuration is what the window goes by, whatever is edited
          exact (shows_of_some (b := b.perform (.edit config)) hpending).mpr
            ((shows_of_some hpending).mp h)
      | none => exact (shows_of_none (b := b.perform (.edit config)) hpending).mpr (Or.inl rfl)
  | editAudio audio =>
      cases hpending : b.pendingRemoteConfig with
      | some p =>
          exact (shows_of_some (b := b.editAudio audio) hpending).mpr ((shows_of_some hpending).mp h)
      -- an edit that is sent is a configuration under way
      | none => exact shows_of_push (b := b.editAudio audio) hpending (any_isPush_append _ rfl)
  | apply =>
      show b.applyConfig.Shows c
      unfold applyConfig
      split
      · exact shows_of_push rfl (any_isPush_append _ rfl)
      · exact h
  -- the one action that may leave the window with what nobody has
  | revert => exact shows_revert h (hrevert rfl)
  | connectAsClientTo peer => exact (shows_of_push rfl (any_isPush_append _ rfl)).send .start
  | start => exact h.send .start
  | stop =>
      rw [perform]
      split
      · exact h.send .stop
      · exact h
  | restart =>
      rw [perform]
      split
      · exact h.send .restart
      · exact h
  | other => exact h.send .other
  | drag dragging => exact h
  | reconcile fresh => exact shows_reconcile h fresh

/-- No action connects or disconnects the window. -/
theorem connected_perform (b : EditBuffer) (a : Action) : (b.perform a).connected = b.connected := by
  cases a with
  | apply =>
      show b.applyConfig.connected = _
      unfold applyConfig
      split <;> rfl
  | revert =>
      show b.revert.connected = _
      unfold revert
      split
      · split <;> rfl
      · rfl
  | reconcile fresh =>
      show (b.reconcile fresh).connected = _
      unfold reconcile
      split
      · rfl
      split
      · rfl
      split
      · rfl
      · simp only
        split <;> rfl
  | stop =>
      rw [perform]
      split <;> rfl
  | restart =>
      rw [perform]
      split <;> rfl
  | _ => rfl

end EditBuffer

/-! ## The queue of updates -/

/-- An update without a document does not change the last document on its way. -/
theorem queued_append_of_none {updates : List EditUpdate} {u : EditUpdate} (h : u.document = none) :
    queued (updates ++ [u]) = queued updates := by
  rw [queued, List.filterMap_append, List.filterMap_cons_none h, List.filterMap_nil, List.append_nil,
    queued]

/-- A document that comes last is the last on its way. -/
theorem queued_append_config (updates : List EditUpdate) (c : Config) :
    queued (updates ++ [.config c]) = some c := by
  rw [queued, List.filterMap_append]
  exact List.getLast?_concat

/-- An update without a document in front does not change the last document on its way. -/
theorem queued_cons_of_none {updates : List EditUpdate} {u : EditUpdate} (h : u.document = none) :
    queued (u :: updates) = queued updates := by
  rw [queued, List.filterMap_cons_none h, queued]

/-- A document in front is the last on its way only if there is none behind it. -/
theorem queued_cons_config (updates : List EditUpdate) (c : Config) :
    queued (.config c :: updates) = some ((queued updates).getD c) := by
  show (c :: updates.filterMap EditUpdate.document).getLast? = _
  rw [List.getLast?_cons, queued]

/-- If the loop takes an event and goes on, the daemon is the one that has handled it. -/
theorem Daemon.step_event_up {d d' : Supervisor} {env : Env} {e : LoopEvent}
    (h : Daemon.step (.up d) (env, .event e) = .up d') : d' = d.handle env e := by
  have hstep : Daemon.stepUp d env e = .up d' := h
  unfold Daemon.stepUp at hstep
  simp only at hstep
  split at hstep
  · cases hstep
  · exact (Daemon.up.inj hstep).symm

/-- Nothing but an event changes the document of a daemon that stays up. -/
theorem Daemon.step_up {d d' : Supervisor} {env : Env} {i : Input}
    (h : Daemon.step (.up d) (env, i) = .up d') :
    (∃ e, i = .event e ∧ d' = d.handle env e) ∨ d'.config = d.config := by
  cases i with
  | event e => exact Or.inl ⟨e, rfl, Daemon.step_event_up h⟩
  | launch seed =>
      right
      rw [← Daemon.up.inj h]
  | crash => cases h
  | editConfig file =>
      right
      rw [← Daemon.up.inj h]
  | editSidecar file =>
      right
      rw [← Daemon.up.inj h]

/-- The daemon does not get a push, or does not accept it. -/
def Supervisor.loses (d : Supervisor) (delivered : Bool) (env : Env) : Cmd → Bool
  | .setConfig c => !(delivered && (d.setConfig env c).2.isOk)
  | .setAudioConfig audio => !(delivered && (d.updateAudioConfig env audio).2.isOk)
  | _ => false

/-- A push that is not lost is accepted and announced by the daemon. -/
theorem Supervisor.announced_lt_of_push {d : Supervisor} {delivered : Bool} {env : Env} {cmd : Cmd}
    (hpush : cmd.isPush = true) (h : d.loses delivered env cmd = false) :
    delivered = true ∧ ∃ r, cmd.request = some r ∧
      d.announced < (d.handle env (.request r)).announced := by
  cases cmd with
  | setConfig c =>
      rw [loses, Bool.not_eq_false', Bool.and_eq_true] at h
      exact ⟨h.1, _, rfl, announced_lt_setConfig h.2⟩
  | setAudioConfig audio =>
      rw [loses, Bool.not_eq_false', Bool.and_eq_true] at h
      exact ⟨h.1, _, rfl, announced_lt_setConfig h.2⟩
  | _ => cases hpush

/-- A push that is delivered and lost has been refused, and a refusal leaves the daemon as it is. -/
theorem Supervisor.handle_of_loses {d : Supervisor} {env : Env} {cmd : Cmd}
    (h : d.loses true env cmd = true) :
    ∃ r, cmd.request = some r ∧ d.handle env (.request r) = d := by
  cases cmd with
  | setConfig c =>
      rw [loses, Bool.true_and, Bool.not_eq_true'] at h
      exact ⟨_, rfl, setConfig_of_refused h⟩
  | setAudioConfig audio =>
      rw [loses, Bool.true_and, Bool.not_eq_true'] at h
      exact ⟨_, rfl, setConfig_of_refused h⟩
  | _ => cases h

namespace GuiSession

variable {s : GuiSession} {c : Config}

/-- With a document on its way, the window is aware if that is the daemon's. -/
theorem aware_of_some {q : Config} (h : queued s.updates = some q) : s.Aware c ↔ q = c := by
  rw [Aware, h]

/-- With none on its way, the window is aware if it shows the daemon's. -/
theorem aware_of_none (h : queued s.updates = none) : s.Aware c ↔ s.gui.Shows c := by
  rw [Aware, h]

/-- A document that has been sent to the window is one that it is aware of. -/
theorem aware_tell_config : (s.tell (.config c)).Aware c :=
  (aware_of_some (s := s.tell (.config c)) (queued_append_config s.updates c)).mpr rfl

/-- An update without a document changes nothing of what the window is aware of. -/
theorem aware_tell {u : EditUpdate} (hu : u.document = none) : (s.tell u).Aware c ↔ s.Aware c := by
  unfold Aware
  rw [tell, queued_append_of_none hu]

/-- Draining takes the last document out of the queue, or makes no difference. -/
theorem aware_drain (c : Config) :
    (s.drain.Aware c ↔ s.Aware c) ∨
      ∃ q, queued s.updates = some q ∧ (s.drain.Aware c ↔ (s.gui.apply (.config q)).Shows c) := by
  unfold drain
  split
  · exact Or.inl Iff.rfl
  · next u rest hupdates =>
    unfold Aware
    rw [hupdates]
    cases hu : u.document with
    | none =>
        left
        rw [queued_cons_of_none hu]
        -- what is queued behind it decides, or the window as it is
        cases queued rest with
        | some q => exact Iff.rfl
        | none => exact EditBuffer.shows_apply_of_none hu
    | some q =>
        cases u with
        | config q =>
            rw [queued_cons_config]
            cases queued rest with
            | some q' => exact Or.inl Iff.rfl
            | none => exact Or.inr ⟨q, rfl, Iff.rfl⟩
        | _ => cases hu

/-- Draining an update does not lose a document that the window is aware of. -/
theorem Aware.drain (h : s.Aware c) : s.drain.Aware c := by
  obtain hsame | ⟨q, hqueued, hdrain⟩ := aware_drain (s := s) c
  · exact hsame.mpr h
  · obtain rfl : q = c := (aware_of_some hqueued).mp h
    exact hdrain.mpr EditBuffer.shows_apply_config

/-- With no command to go out, draining does not make the window aware of a document it was not aware
of. -/
theorem Aware.of_drain (hcommands : s.gui.commands = []) (h : s.drain.Aware c) : s.Aware c := by
  obtain hsame | ⟨q, hqueued, hdrain⟩ := aware_drain (s := s) c
  · exact hsame.mp h
  · exact (aware_of_some hqueued).mpr (EditBuffer.eq_of_shows_apply hcommands (hdrain.mp h))

/-- An action, unless it drops edits that covered another document. -/
theorem Aware.act (h : s.Aware c) {a : EditBuffer.Action}
    (hrevert : a = .revert → s.gui.pendingRemoteConfig = none →
      { s with gui := { s.gui with dirty := false } }.Aware c) :
    { s with gui := s.gui.perform a }.Aware c := by
  unfold Aware at h hrevert ⊢
  cases hqueued : queued s.updates with
  | some q =>
      rw [hqueued] at h
      exact h
  | none =>
      simp only [hqueued] at h hrevert
      exact EditBuffer.shows_perform h hrevert

/-- A command that is no push can be taken away. -/
theorem Aware.pop (h : s.Aware c) {cmd : Cmd} {rest : List Cmd} (hcommands : s.gui.commands = cmd :: rest)
    (hcmd : cmd.isPush = false) : { s with gui := { s.gui with commands := rest } }.Aware c := by
  have hany : s.gui.commands.any Cmd.isPush = rest.any Cmd.isPush := by
    rw [hcommands, List.any_cons, hcmd, Bool.false_or]
  unfold Aware EditBuffer.Shows at h ⊢
  rw [hany] at h
  exact h

/-- **The daemon moves on**: if it does not announce a document, it has to be the one that the window is
aware of. -/
theorem informed_advance {env : Env} {i : Input} (hconnected : s.willConnect = true ↔ s.link = .up)
    (hnext : ∀ d d', s.live = true → s.daemon = .up d → s.link.hasDocument = true → s.news = 0 →
      Daemon.step (.up d) (env, i) = .up d' → d.announced < d'.announced ∨ s.Aware d'.config) :
    (s.advance (env, i)).Informed := by
  unfold advance
  split
  · next d d' hd hstep =>
    rw [hd] at hstep
    refine ⟨hconnected, fun hlive => ⟨d', rfl, fun hdocument hnews => ?_⟩⟩
    have hlive' : s.live = true := hlive
    have hzero : s.news + (d'.announced - d.announced) = 0 := by
      simpa [hlive'] using hnews
    obtain hlt | haware := hnext d d' hlive' hd hdocument (by omega) hstep
    · omega
    · exact haware
  · exact ⟨hconnected, fun hlive => by cases hlive⟩

/-! ## Steps that let it drift -/

/-- Edits are dropped, a push or the last news is lost, or a document is rolled back without being
announced, and nothing else will make the window aware of the document of the daemon. -/
def Drifts (s : GuiSession) (i : GuiInput) : Prop :=
  s.live = true ∧ s.link.hasDocument = true ∧ ∃ d, s.daemon = .up d ∧
    match i with
    | .act .revert =>
        s.news = 0 ∧ s.gui.pendingRemoteConfig = none ∧
          ¬ { s with gui := { s.gui with dirty := false } }.Aware d.config
    | .dispatch delivered env =>
        s.news = 0 ∧ ∃ cmd rest, s.gui.commands = cmd :: rest ∧ d.loses delivered env cmd = true ∧
          ¬ { s with gui := { s.gui with commands := rest } }.Aware d.config
    | .refetch false => s.link = .up ∧ s.news = 1 ∧ ¬ s.Aware d.config
    | .daemon env (.event e) => s.news = 0 ∧ ∃ c, d.RollsBackTo env e c ∧ ¬ s.Aware c
    | _ => False

/-- Sending an update that connects the window as far as the event thread. -/
theorem willConnect_tell (s : GuiSession) (u : EditUpdate) :
    (s.tell u).willConnect = u.connects s.willConnect := by
  show (s.updates ++ [u]).foldl EditUpdate.connects s.gui.connected = _
  rw [List.foldl_append]
  rfl

/-- Draining is nothing to the event thread and the daemon. -/
theorem drain_keeps (s : GuiSession) : s.drain.live = s.live ∧ s.drain.daemon = s.daemon ∧
    s.drain.link = s.link ∧ s.drain.news = s.news := by
  unfold drain
  split <;> exact ⟨rfl, rfl, rfl, rfl⟩

/-- An action does not change whether the window is going to be connected. -/
theorem willConnect_act (s : GuiSession) (a : EditBuffer.Action) :
    (s.step (.act a)).willConnect = s.willConnect := by
  show s.updates.foldl EditUpdate.connects (s.gui.perform a).connected = _
  rw [EditBuffer.connected_perform]
  rfl

/-- Nor does taking what is on its way. -/
theorem willConnect_drain (s : GuiSession) : s.drain.willConnect = s.willConnect := by
  unfold drain willConnect
  split
  · rfl
  · next u rest hupdates => rw [hupdates, List.foldl_cons, EditBuffer.connected_apply]

/-! ## One step -/

/-- An action that does not drift leaves the window informed. -/
theorem Informed.act (h : s.Informed) {a : EditBuffer.Action} (hdrift : ¬ s.Drifts (.act a)) :
    (s.step (.act a)).Informed where
  connected := by
    rw [willConnect_act]
    exact h.connected
  live := by
    intro hlive
    obtain ⟨d, hd, haware⟩ := h.live hlive
    refine ⟨d, hd, fun hdocument hnews => (haware hdocument hnews).act fun hrevert hpending => ?_⟩
    subst hrevert
    by_contra hlost
    exact hdrift ⟨hlive, hdocument, d, hd, hnews, hpending, hlost⟩

/-- Taking what is on its way leaves the window informed. -/
theorem Informed.drain (h : s.Informed) : s.drain.Informed where
  connected := by
    rw [willConnect_drain, (drain_keeps s).2.2.1]
    exact h.connected
  live := by
    obtain ⟨hlive, hdaemon, hlink, hnews⟩ := drain_keeps s
    rw [hlive, hdaemon, hlink, hnews]
    intro hlive
    obtain ⟨d, hd, haware⟩ := h.live hlive
    exact ⟨d, hd, fun hdocument hnews => (haware hdocument hnews).drain⟩

/-- What happens to the daemon keeps the window informed, unless it lets it drift. -/
theorem Informed.daemon (h : s.Informed) {env : Env} {i : Input}
    (hdrift : ¬ s.Drifts (.daemon env i)) : (s.advance (env, i)).Informed := by
  refine informed_advance h.connected fun d d' hlive hd hdocument hnews hstep => ?_
  obtain ⟨d'', hd'', haware⟩ := h.live hlive
  obtain rfl : d = d'' := Daemon.up.inj (hd.symm.trans hd'')
  have haware := haware hdocument hnews
  obtain ⟨e, rfl, rfl⟩ | hsame := Daemon.step_up hstep
  · obtain hsame | hlt | hroll := d.handle_announces env e
    · rw [hsame]
      exact Or.inr haware
    · exact Or.inl hlt
    · right
      by_contra hlost
      exact hdrift ⟨hlive, hdocument, d, hd, hnews, _, hroll, hlost⟩
  · rw [hsame]
    exact Or.inr haware

/-- A command that is taken up keeps the window informed, unless it lets it drift. -/
theorem Informed.dispatch (h : s.Informed) {delivered : Bool} {env : Env}
    (hdrift : ¬ s.Drifts (.dispatch delivered env)) : (s.dispatch delivered env).Informed := by
  unfold GuiSession.dispatch
  split
  · exact h
  · next cmd rest hcommands =>
    -- without the command the window is aware still, or the command is a push that arrives
    have hpopped : ∀ d, s.live = true → s.daemon = .up d → s.link.hasDocument = true → s.news = 0 →
        { s with gui := { s.gui with commands := rest } }.Aware d.config ∨
          cmd.isPush = true ∧ d.loses delivered env cmd = false := by
      intro d hlive hd hdocument hnews
      obtain ⟨d', hd', haware⟩ := h.live hlive
      obtain rfl : d = d' := Daemon.up.inj (hd.symm.trans hd')
      cases hpush : cmd.isPush with
      | false => exact Or.inl ((haware hdocument hnews).pop hcommands hpush)
      | true =>
          cases hloses : d.loses delivered env cmd with
          | false => exact Or.inr ⟨rfl, rfl⟩
          | true =>
              left
              by_contra hlost
              exact hdrift ⟨hlive, hdocument, d, hd, hnews, cmd, rest, hcommands, hloses, hlost⟩
    simp only
    split
    · next r hrequest =>
      refine informed_advance h.connected fun d d' hlive hd hdocument hnews hstep => ?_
      obtain rfl := Daemon.step_event_up hstep
      obtain haware | ⟨hpush, hloses⟩ := hpopped d hlive hd hdocument hnews
      · obtain hsame | hlt | hroll := d.handle_announces env (.request r)
        · rw [hsame]
          exact Or.inr haware
        · exact Or.inl hlt
        · exact hroll.1.elim
      · obtain ⟨-, r', hr', hlt⟩ := Supervisor.announced_lt_of_push hpush hloses
        obtain rfl : r = r' := Option.some.inj (hrequest.symm.trans hr')
        exact Or.inl hlt
    · next hundelivered =>
      refine ⟨h.connected, fun hlive => ?_⟩
      obtain ⟨d, hd, -⟩ := h.live hlive
      refine ⟨d, hd, fun hdocument hnews => ?_⟩
      obtain haware | ⟨hpush, hloses⟩ := hpopped d hlive hd hdocument hnews
      · exact haware
      · obtain ⟨hdelivered, r, hr, -⟩ := Supervisor.announced_lt_of_push hpush hloses
        exact (hundelivered r hr hdelivered).elim

/-- The event thread that reads the next news keeps the window informed, unless it lets it drift. -/
theorem Informed.refetch (h : s.Informed) {fetched : Bool} (hdrift : ¬ s.Drifts (.refetch fetched)) :
    (s.refetch fetched).Informed := by
  unfold GuiSession.refetch
  split
  · next hup =>
    obtain ⟨hlink, hpos⟩ := hup
    cases fetched with
    | true =>
        simp only
        split
        · next d _ hd =>
          refine ⟨?_, fun hlive => ⟨d, hd, fun _ _ => aware_tell_config⟩⟩
          rw [willConnect_tell]
          exact h.connected
        · next hdown =>
          refine ⟨h.connected, fun hlive => ?_⟩
          obtain ⟨d, hd, -⟩ := h.live hlive
          exact (hdown d rfl hd).elim
    | false =>
        refine ⟨h.connected, fun hlive => ?_⟩
        obtain ⟨d, hd, -⟩ := h.live hlive
        refine ⟨d, hd, fun hdocument hnews => ?_⟩
        by_contra hlost
        have hone : s.news = 1 := by
          have hzero : s.news - 1 = 0 := hnews
          omega
        exact hdrift ⟨hlive, hdocument, d, hd, hlink, hone, hlost⟩
  · exact h

/-- An update without a document that leaves the window as connected as it is. -/
theorem Informed.tell (h : s.Informed) {u : EditUpdate} (hu : u.document = none)
    (hconnects : u.connects s.willConnect = s.willConnect) : (s.tell u).Informed where
  connected := by
    rw [willConnect_tell, hconnects]
    exact h.connected
  live := by
    intro hlive
    obtain ⟨d, hd, haware⟩ := h.live hlive
    exact ⟨d, hd, fun hdocument hnews => (aware_tell hu).mpr (haware hdocument hnews)⟩

/-- Until the event thread follows the events the window is not connected. -/
theorem Informed.not_willConnect (h : s.Informed) (hlink : s.link ≠ .up) : s.willConnect = false := by
  rw [← Bool.not_eq_true]
  exact fun hwill => hlink (h.connected.mp hwill)

/-- **One step**: the window stays informed, unless the step lets it drift. -/
theorem Informed.step (h : s.Informed) {i : GuiInput} (hdrift : ¬ s.Drifts i) :
    (s.step i).Informed := by
  cases i with
  | act a => exact h.act hdrift
  | drain => exact h.drain
  | dispatch delivered env => exact h.dispatch hdrift
  | daemon env i => exact h.daemon hdrift
  -- only the last part of the bootstrap connects the window
  | subscribe =>
      rw [GuiSession.step]
      split
      · next d hlink hd =>
        have hwill := h.not_willConnect (by rw [hlink]; decide)
        refine ⟨⟨fun hon => ?_, fun hup => by cases hup⟩,
          fun _ => ⟨d, hd, fun hdocument => by cases hdocument⟩⟩
        exact absurd (hwill.symm.trans hon) Bool.false_ne_true
      · exact h
  | fetch =>
      rw [GuiSession.step]
      split
      · next d hlink hd =>
        have hwill := h.not_willConnect (by rw [hlink]; decide)
        refine ⟨⟨fun hon => ?_, fun hup => by cases hup⟩, fun _ => ⟨d, hd, fun _ _ => aware_tell_config⟩⟩
        rw [willConnect_tell] at hon
        exact absurd (hwill.symm.trans hon) Bool.false_ne_true
      · exact h
  | bootstrapped =>
      rw [GuiSession.step]
      split
      · next hlink =>
        refine ⟨⟨fun _ => rfl, fun _ => ?_⟩, fun hlive => ?_⟩
        · rw [willConnect_tell]
          rfl
        · obtain ⟨d, hd, haware⟩ := h.live hlive
          exact ⟨d, hd, fun _ hnews => (aware_tell rfl).mpr (haware (by rw [hlink]; rfl) hnews)⟩
      · exact h
  | refetch fetched => exact h.refetch hdrift
  | hangUp => exact ⟨h.connected, fun hlive => by cases hlive⟩
  | giveUp =>
      refine ⟨⟨fun hwill => ?_, fun hup => by cases hup⟩, fun hlive => by cases hlive⟩
      rw [GuiSession.step, willConnect_tell] at hwill
      cases hwill
  | launching =>
      rw [GuiSession.step]
      split
      · next hlink => exact h.tell rfl (h.not_willConnect (by rw [hlink]; decide)).symm
      · exact h
  | trusted peers => exact h.tell rfl rfl

/-! ## Whole runs -/

/-- The session after so many inputs, from a window just opened. -/
def after (daemon : Daemon) (monitors : List MonitorInfo) (inputs : List GuiInput) (n : ℕ) :
    GuiSession :=
  Run.after step (opened daemon monitors) inputs n

/-- A window that has just been opened is informed. -/
theorem informed_opened (daemon : Daemon) (monitors : List MonitorInfo) :
    (opened daemon monitors).Informed where
  connected := by
    constructor
    · intro h
      cases h
    · intro h
      cases h
  live := by
    intro h
    cases h

/-- The window is informed up to the first step that lets it drift. -/
theorem informed_after {daemon : Daemon} {monitors : List MonitorInfo} {inputs : List GuiInput} {n : ℕ}
    (hsteps : ∀ m < n, ∀ i, inputs[m]? = some i → ¬ (after daemon monitors inputs m).Drifts i) :
    (after daemon monitors inputs n).Informed := by
  induction n with
  | zero => exact informed_opened daemon monitors
  | succ n ih =>
      have hinformed := ih fun m hm => hsteps m (by omega)
      unfold after at hinformed hsteps ⊢
      cases hi : inputs[n]? with
      | none =>
          rw [Run.after_succ_none hi]
          exact hinformed
      | some i =>
          rw [Run.after_succ hi]
          exact hinformed.step (hsteps n (by omega) i hi)

/-- A quiet window that is aware of a document shows it. -/
theorem Quiescent.config_eq (hquiet : s.Quiescent) (h : s.Aware c) : s.gui.config = c := by
  have hqueued : queued s.updates = none := by
    rw [hquiet.updates]
    rfl
  have hshows := (EditBuffer.shows_of_none hquiet.resolved).mp ((aware_of_none hqueued).mp h)
  rw [hquiet.clean, hquiet.commands] at hshows
  obtain hdirty | hpush | hsame := hshows
  · cases hdirty
  · cases hpush
  · exact hsame

/-- **The window does not drift from the daemon** in a run of which no step lets it: whenever nothing is
left to do, both have the same document. -/
theorem never_drifts {daemon : Daemon} {monitors : List MonitorInfo} {inputs : List GuiInput}
    (hsteps : ∀ n i, inputs[n]? = some i → ¬ (after daemon monitors inputs n).Drifts i) (n : ℕ)
    (hquiet : (after daemon monitors inputs n).Quiescent) :
    ∃ d, (after daemon monitors inputs n).daemon = .up d ∧
      (after daemon monitors inputs n).gui.config = d.config := by
  have hinformed := informed_after fun m (_ : m < n) => hsteps m
  obtain ⟨d, hd, haware⟩ := hinformed.live hquiet.live
  refine ⟨d, hd, hquiet.config_eq (haware ?_ hquiet.news)⟩
  have hwill : (after daemon monitors inputs n).willConnect = true := by
    rw [willConnect, hquiet.updates]
    exact hquiet.connected
  rw [hinformed.connected.mp hwill]
  rfl

/-- The inputs with which a window connects: it subscribes, fetches the document and takes both
updates. -/
def connecting : List GuiInput := [.subscribe, .fetch, .bootstrapped, .drain, .drain]

/-- The default document with another port, as an edit of it. -/
def otherPort : Config := { Config.default with port := 24900 }

/-- An edit that is applied, accepted, announced and fetched. -/
def applied : List GuiInput :=
  connecting ++ [.act (.edit otherPort), .act .apply, .dispatch true (.calm 0 100), .refetch true, .drain]

/-- A run in which the user edits and applies: the window ends with the daemon's document. -/
theorem never_drifts_applied :
    ∃ d, (after (.up Supervisor.fetchedFrom) [] applied 10).daemon = .up d ∧
      (after (.up Supervisor.fetchedFrom) [] applied 10).gui.config = d.config := by
  have hsteps : ∀ n i, applied[n]? = some i →
      ¬ (after (.up Supervisor.fetchedFrom) [] applied n).Drifts i := by
    intro n i hi
    have hlt : n < 10 := (List.getElem?_eq_some_iff.mp hi).1
    interval_cases n <;> obtain rfl := Option.some.inj hi <;> rintro ⟨-, -, d, hd, hdrift⟩
    all_goals try exact hdrift
    -- the push arrives
    obtain ⟨-, cmd, rest, hcommands, hloses, -⟩ := hdrift
    obtain rfl : Supervisor.fetchedFrom = d := Daemon.up.inj hd
    obtain rfl : Cmd.setConfig otherPort = cmd := (List.cons.inj hcommands).1
    exact absurd hloses (by decide)
  exact never_drifts hsteps 10 ⟨rfl, rfl, rfl, rfl, rfl, rfl, rfl⟩

/-! ## Such steps do let it drift -/

/-- The window is not aware of the document of the daemon, and no news is before it. -/
structure Stray (s : GuiSession) (d : Supervisor) : Prop where
  live : s.live = true
  document : s.link.hasDocument = true
  daemon : s.daemon = .up d
  news : s.news = 0
  connected : s.willConnect = true ↔ s.link = .up
  unaware : ¬ s.Aware d.config

variable {d : Supervisor}

/-- The event thread may come to follow the events without the window being any less stray. -/
theorem Stray.bootstrapped (h : s.Stray d) :
    (s.step .bootstrapped).Stray d ∧ (s.step .bootstrapped).link = .up := by
  rw [step]
  split
  · refine ⟨⟨h.live, rfl, h.daemon, h.news, ⟨fun _ => rfl, fun _ => ?_⟩, ?_⟩, rfl⟩
    · rw [willConnect_tell]
      rfl
    · rw [aware_tell rfl]
      exact h.unaware
  · next hlink =>
    refine ⟨h, ?_⟩
    have hdocument := h.document
    cases hs : s.link with
    | up => rfl
    | fetched => exact absurd hs hlink
    | _ =>
        rw [hs] at hdocument
        cases hdocument

/-- A window with a command less is not aware of more. -/
theorem Aware.of_pop {cmd : Cmd} {rest : List Cmd} (hcommands : s.gui.commands = cmd :: rest)
    (h : { s with gui := { s.gui with commands := rest } }.Aware c) : s.Aware c := by
  have hany : rest.any Cmd.isPush = true → s.gui.commands.any Cmd.isPush = true := by
    intro hrest
    rw [hcommands, List.any_cons, hrest, Bool.or_true]
  unfold Aware EditBuffer.Shows at h ⊢
  cases hqueued : queued s.updates with
  | some q =>
      simp only [hqueued] at h
      exact h
  | none =>
      simp only [hqueued] at h
      cases hpending : s.gui.pendingRemoteConfig with
      | some p =>
          simp only [hpending] at h
          exact h
      | none =>
          simp only [hpending] at h
          exact h.imp_right fun h => h.imp_left hany

/-- A command that is not delivered is dropped, and nothing else changes. -/
theorem dispatch_false {cmd : Cmd} {rest : List Cmd} (hcommands : s.gui.commands = cmd :: rest)
    (env : Env) : s.dispatch false env = { s with gui := { s.gui with commands := rest } } := by
  unfold dispatch
  rw [hcommands]
  cases hrequest : cmd.request with
  | none => simp only [hrequest]
  | some r => simp only [hrequest]

/-- All commands of a stray window may be lost, and it is as stray as before. -/
theorem Stray.no_commands (h : s.Stray d) (hlink : s.link = .up) :
    ∃ more : List GuiInput, (more.foldl step s).Stray d ∧ (more.foldl step s).link = .up ∧
      (more.foldl step s).gui.commands = [] := by
  generalize hcommands : s.gui.commands = commands
  induction commands generalizing s with
  | nil => exact ⟨[], h, hlink, hcommands⟩
  | cons cmd rest ih =>
      have hstray : { s with gui := { s.gui with commands := rest } }.Stray d :=
        ⟨h.live, h.document, h.daemon, h.news, h.connected, fun haware =>
          h.unaware (haware.of_pop hcommands)⟩
      obtain ⟨more, hmore⟩ := ih hstray hlink rfl
      refine ⟨.dispatch false (.calm 0 0) :: more, ?_⟩
      rw [List.foldl_cons, step, dispatch_false hcommands]
      exact hmore

/-- With no commands left the updates may be drained, and bring the window nothing. -/
theorem Stray.no_updates (h : s.Stray d) (hlink : s.link = .up) (hcommands : s.gui.commands = []) :
    ∃ more : List GuiInput, (more.foldl step s).Stray d ∧ (more.foldl step s).link = .up ∧
      (more.foldl step s).gui.commands = [] ∧ (more.foldl step s).updates = [] := by
  generalize hupdates : s.updates = updates
  induction updates generalizing s with
  | nil => exact ⟨[], h, hlink, hcommands, hupdates⟩
  | cons u rest ih =>
      obtain ⟨hlive, hdaemon, hlinks, hnews⟩ := drain_keeps s
      have hstray : s.drain.Stray d :=
        ⟨hlive.trans h.live, hlinks ▸ h.document, hdaemon.trans h.daemon, hnews.trans h.news, by
          rw [willConnect_drain, hlinks]
          exact h.connected, fun haware => h.unaware (haware.of_drain hcommands)⟩
      have hrest : s.drain.updates = rest := by
        rw [drain, hupdates]
      have hnone : s.drain.gui.commands = [] := by
        rw [drain, hupdates]
        exact (EditBuffer.commands_apply u).trans hcommands
      obtain ⟨more, hmore⟩ := ih hstray (hlinks.trans hlink) hnone hrest
      exact ⟨.drain :: more, hmore⟩

/-- **A stray window may come to rest** with another document than the daemon's. -/
theorem Stray.drifts (h : s.Stray d) :
    ∃ more : List GuiInput, (more.foldl step s).Quiescent ∧ (more.foldl step s).daemon = .up d ∧
      (more.foldl step s).gui.config ≠ d.config := by
  obtain ⟨hstray, hlink⟩ := h.bootstrapped
  obtain ⟨more, hstray, hlink, hcommands⟩ := hstray.no_commands hlink
  obtain ⟨more', hstray, hlink, hcommands, hupdates⟩ := hstray.no_updates hlink hcommands
  rw [← List.foldl_append] at hstray hlink hcommands hupdates
  have hreached : (more ++ more').foldl step (s.step .bootstrapped) =
      (.bootstrapped :: (more ++ more')).foldl step s := rfl
  rw [hreached] at hstray hlink hcommands hupdates
  generalize hrun : GuiInput.bootstrapped :: (more ++ more') = run at hstray hlink hcommands hupdates
  generalize ht : run.foldl step s = t at hstray hlink hcommands hupdates
  have hconnected : t.gui.connected = true := by
    have hwill := hstray.connected.mpr hlink
    rw [willConnect, hupdates] at hwill
    exact hwill
  have hshows : ¬ t.gui.Shows d.config := by
    have hqueued : queued t.updates = none := by
      rw [hupdates]
      rfl
    exact fun hshows => hstray.unaware ((aware_of_none hqueued).mpr hshows)
  cases hpending : t.gui.pendingRemoteConfig with
  | none =>
      rw [EditBuffer.shows_of_none hpending, not_or, not_or, Bool.not_eq_true] at hshows
      refine ⟨run, ?_⟩
      rw [ht]
      exact ⟨⟨hconnected, hshows.1, hpending, hcommands, hupdates, hstray.news, hstray.live⟩,
        hstray.daemon, hshows.2.2⟩
  | some p =>
      -- the banner is resolved by loading what it shows
      rw [EditBuffer.shows_of_some hpending] at hshows
      have hrevert : t.step (.act .revert) =
          { t with gui :=
            { t.gui with dirty := false, config := p, pendingRemoteConfig := none } } := by
        show { t with gui := t.gui.revert } = _
        rw [EditBuffer.revert, hpending, Option.isSome_some, Bool.or_true, if_pos rfl]
      refine ⟨run ++ [.act .revert], ?_⟩
      rw [List.foldl_append, ht, List.foldl_cons, List.foldl_nil, hrevert]
      exact ⟨⟨hconnected, rfl, rfl, hcommands, hupdates, hstray.news, hstray.live⟩, hstray.daemon,
        hshows⟩

/-- A step in which the daemon stays up adds its announcements to the news, if the connection is
alive. -/
theorem advance_eq {input : Env × Input} {d d' : Supervisor} (hd : s.daemon = .up d)
    (hstep : Daemon.step (.up d) input = .up d') :
    s.advance input =
      { s with
        daemon := .up d'
        news := if s.live then s.news + (d'.announced - d.announced) else s.news } := by
  rw [advance, hd, hstep]

/-- If the daemon comes to a document without announcing it, of which the window is not aware, the
window is stray. -/
theorem stray_advance {env : Env} {e : LoopEvent} (hlive : s.live = true)
    (hdocument : s.link.hasDocument = true) (hd : s.daemon = .up d) (hnews : s.news = 0)
    (hconnected : s.willConnect = true ↔ s.link = .up)
    (hgoes : (d.handle env e).leavesLoop e = false)
    (hquiet : (d.handle env e).announced = d.announced)
    (hunaware : ¬ s.Aware (d.handle env e).config) :
    (s.advance (env, .event e)).Stray (d.handle env e) := by
  have hstep : Daemon.step (.up d) (env, .event e) = .up (d.handle env e) := by
    show Daemon.stepUp d env e = _
    unfold Daemon.stepUp
    simp only [hgoes]
    rfl
  rw [advance_eq hd hstep, hquiet, Nat.sub_self, Nat.add_zero, ite_self]
  exact ⟨hlive, hdocument, rfl, hnews, hconnected, hunaware⟩

/-- **A step that lets the window drift** leaves it stray. -/
theorem Drifts.stray {i : GuiInput} (h : s.Drifts i)
    (hconnected : s.willConnect = true ↔ s.link = .up)
    (hgoes : ∀ d, s.daemon = .up d → d.shutdown = false) : ∃ d, (s.step i).Stray d := by
  obtain ⟨hlive, hdocument, d, hd, hdrift⟩ := h
  cases i with
  | act a =>
      cases a with
      | revert =>
          -- with no edit pending a revert shows the saved document, whether it is current or not
          obtain ⟨hnews, hpending, hlost⟩ := hdrift
          refine ⟨d, hlive, hdocument, hd, hnews, ?_, fun haware => hlost ?_⟩
          · rw [willConnect_act]
            exact hconnected
          · unfold Aware at haware ⊢
            cases hqueued : queued s.updates with
            | some q =>
                have hqueued' : queued (s.step (.act .revert)).updates = some q := hqueued
                rw [hqueued'] at haware
                exact haware
            | none =>
                have hqueued' : queued (s.step (.act .revert)).updates = none := hqueued
                rw [hqueued'] at haware
                exact (EditBuffer.shows_revert_of_none hpending).mp haware
      | _ => cases hdrift
  | dispatch delivered env =>
      obtain ⟨hnews, cmd, rest, hcommands, hloses, hlost⟩ := hdrift
      cases delivered with
      | false =>
          refine ⟨d, ?_⟩
          rw [step, dispatch_false hcommands]
          exact ⟨hlive, hdocument, hd, hnews, hconnected, hlost⟩
      | true =>
          -- the daemon takes the request and changes nothing, so no event tells the window
          obtain ⟨r, hr, hsame⟩ := Supervisor.handle_of_loses hloses
          have hdispatch : s.step (.dispatch true env) =
              { s with gui := { s.gui with commands := rest } }.advance (env, .event (.request r)) := by
            rw [step, dispatch, hcommands]
            simp only [hr]
          rw [hdispatch]
          refine ⟨_, stray_advance hlive hdocument hd hnews hconnected ?_ ?_ ?_⟩
          · rw [hsame]
            exact hgoes d hd
          · rw [hsame]
          · rw [hsame]
            exact hlost
  | daemon env i =>
      cases i with
      | event e =>
          obtain ⟨hnews, c, hroll, hlost⟩ := hdrift
          obtain ⟨hconfig, hquiet, hstays⟩ := hroll.handle
          refine ⟨_, stray_advance hlive hdocument hd hnews hconnected hstays hquiet ?_⟩
          rw [hconfig]
          exact hlost
      | _ => cases hdrift
  | refetch fetched =>
      cases fetched with
      | true => cases hdrift
      | false =>
          obtain ⟨hlink, hnews, hlost⟩ := hdrift
          have hrefetch : s.step (.refetch false) = { s with news := s.news - 1 } := by
            rw [step, refetch, if_pos ⟨hlink, by omega⟩]
          rw [hrefetch]
          exact ⟨d, hlive, hdocument, hd, by show s.news - 1 = 0; omega, hconnected, hlost⟩
  | _ => cases hdrift

/-- **The first step that lets the window drift** may be followed by steps after which nothing is left to
do and the documents differ. -/
theorem drift_follows {daemon : Daemon} {monitors : List MonitorInfo} {inputs : List GuiInput} {n : ℕ}
    (hsteps : ∀ m < n, ∀ i, inputs[m]? = some i → ¬ (after daemon monitors inputs m).Drifts i)
    {i : GuiInput} (hi : inputs[n]? = some i) (hdrift : (after daemon monitors inputs n).Drifts i)
    (hgoes : ∀ d, (after daemon monitors inputs n).daemon = .up d → d.shutdown = false) :
    ∃ (more : List GuiInput) (d : Supervisor),
      (more.foldl step (after daemon monitors inputs (n + 1))).Quiescent ∧
      (more.foldl step (after daemon monitors inputs (n + 1))).daemon = .up d ∧
      (more.foldl step (after daemon monitors inputs (n + 1))).gui.config ≠ d.config := by
  obtain ⟨d, hstray⟩ := hdrift.stray (informed_after hsteps).connected hgoes
  obtain ⟨more, hmore⟩ := hstray.drifts
  refine ⟨more, d, ?_⟩
  unfold after at hmore ⊢
  rw [Run.after_succ hi]
  exact hmore

/-- An edit that is reverted: the daemon answers with its status. -/
def reverted : List GuiInput :=
  connecting ++ [.act (.edit otherPort), .act .revert, .dispatch true (.calm 0 100)]

/-- The edit stays in the window, which shows neither edits nor a banner. -/
theorem revert_drifts : ¬ ∀ daemon monitors inputs n, (after daemon monitors inputs n).Quiescent →
    ∃ d, (after daemon monitors inputs n).daemon = .up d ∧
      (after daemon monitors inputs n).gui.config = d.config := by
  intro h
  obtain ⟨d, hd, hconfig⟩ :=
    h (.up Supervisor.fetchedFrom) [] reverted 8 ⟨rfl, rfl, rfl, rfl, rfl, rfl, rfl⟩
  obtain rfl : Supervisor.fetchedFrom = d := Daemon.up.inj hd
  have hport : (24900 : ℕ) = 24800 := congrArg Config.port hconfig
  cases hport

end GuiSession

end Synbad
