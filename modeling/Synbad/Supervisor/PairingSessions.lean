import Synbad.Config.CoreInputs
import Synbad.Discovery.Possession
import Synbad.Lib.Keyed
import Synbad.Sync.Session

/-! # Pairing sessions and the supervisor

Sessions are tasks of their own, accepted by the pairing listener or opened by `StartPairing`. The
supervisor holds a sender for each, under the session's id, by which a `ConfirmPairing` reaches it.
`synbadd/src/pairing.rs` around `run_session`, `start_pairing` and `ConfirmPairing` of `requests.rs`,
and `handle_incoming_pairing` and `gc_pairing_tasks` of `supervisor/mod.rs`. All sessions share one
trust store.

A session that comes in waits in a channel until the supervisor has its sender, and only then may it
run, so that its code is never shown before it can be answered. The accept loop serves a bounded
number at once, and is aborted and bound anew when the port changes or the machine is renamed; what
waited in its channel is dropped with it. `confirmPairing` uses a sender up, whether or not the
session still listens.

The session's own steps are those of `Discovery.PairingSession`, run on the shared store. The list of
all sessions and the list of the answers are the model's own record: no handler reads a session that
has been collected, and statements about runs need to. -/

namespace Synbad

/-! ## State -/

/-- Where the task of a session stands around `run_session`. -/
inductive TaskPhase where
  /-- Accepted, and waiting for the supervisor to have its sender. -/
  | unregistered
  /-- Opened by us, and not connected yet; it cannot be answered there. -/
  | connecting
  | running
  /-- Over without having run, as the connection failed or it was dropped. -/
  | over
  deriving DecidableEq, Repr

/-- The session waits for the verdict of the user. -/
def PairStage.takesVerdict : PairStage → Bool
  | .deciding _ => true
  | .awaitsVerdict _ _ => true
  | _ => false

/-- The task of a session, with what it shares with the supervisor: the channel of the verdict. -/
structure SessionTask where
  sessionId : String
  deps : PairDeps
  phase : TaskPhase
  session : Pairing
  /-- The verdict, sent by the supervisor and not yet received by the session. -/
  verdict : Option Bool
  /-- The sender has been used, so no verdict can be sent any more. -/
  answered : Bool
  /-- The accept loop whose slot it holds, if it came in over the listener. -/
  slot : Option ℕ

namespace SessionTask

/-- `JoinHandle::is_finished`; the receiver of the verdict is dropped with the task. -/
def isFinished (t : SessionTask) : Bool :=
  match t.phase with
  | .over => true
  | .running => t.session.stage.isFinished
  | _ => false

end SessionTask

/-- The pairing side of the supervisor, with every session there has been. -/
structure PairingSupervisor where
  deps : PairDeps
  trust : TrustedPeerStore
  peers : String → Option DiscoveredPeer
  /-- `pairing_confirm`: the ids it holds a sender for, by which they can be answered. -/
  confirm : List String
  /-- `pairing_tasks`, by the ids of the sessions, to count those that run. -/
  tasks : List String
  /-- The channel of incoming sessions, oldest first, up to its capacity. -/
  incoming : List String
  /-- The session an accept loop waits to put into it. -/
  offered : Option String
  /-- The accept loop that runs, by its number. -/
  listener : Option ℕ
  listeners : ℕ
  /-- The counter of `new_session_id`, which only rises. -/
  minted : ℕ
  /-- Every session there has been, in the order of their ids. -/
  sessions : List SessionTask
  /-- The `ConfirmPairing` requests that found a sender, with their verdicts. -/
  answers : List (String × Bool)

/-- Why a request to start or to answer a pairing is refused. -/
inductive PairingRefusal where
  | tooMany
  | notDiscovered (machineId : String)
  | noPending (sessionId : String)
  deriving DecidableEq

/-- The text of the `Response::Error`; ids are printed in the quoted form of `{:?}`. -/
def PairingRefusal.message (unicode : UnicodeTables) : PairingRefusal → String
  | .tooMany => "too many pairing sessions; retry shortly"
  | .notDiscovered machineId => "peer " ++ debugStr unicode machineId ++ " not currently discovered"
  | .noPending sessionId => "no pending pairing session " ++ debugStr unicode sessionId

/-- `new_session_id`: the time and the counter, which alone makes it unique. -/
def newSessionId (now n : ℕ) : String := "pair-" ++ toString now ++ "-" ++ toString n

namespace PairingSupervisor

/-- The capacity of the channel of incoming sessions; a session that finds it full waits. -/
def incomingCapacity : ℕ := 8

/-- How many sessions an accept loop serves at once. -/
def slots : ℕ := 64

/-- How many tasks the supervisor may hold when a session is opened. -/
def maxTasks : ℕ := 64

/-- The session of an id, if there is one. -/
def session (s : PairingSupervisor) (id : String) : Option SessionTask :=
  Keyed.find SessionTask.sessionId id s.sessions

/-- The session of an id changes, and the others stay. -/
def update (s : PairingSupervisor) (id : String) (f : SessionTask → SessionTask) : PairingSupervisor :=
  { s with sessions := s.sessions.map fun t => if t.sessionId = id then f t else t }

/-- The task of an id has ended, and its receiver is gone. -/
def ended (s : PairingSupervisor) (id : String) : Bool :=
  match s.session id with
  | none => true
  | some t => t.isFinished

/-- `gc_pairing_tasks`: what is kept of sessions that have ended goes. -/
def gcPairingTasks (s : PairingSupervisor) : PairingSupervisor :=
  { s with
    tasks := s.tasks.filter fun id => !s.ended id
    confirm := s.confirm.filter fun id => !s.ended id }

/-- A new session, spawned with the trust store as it is and the next id. -/
def spawn (s : PairingSupervisor) (now : ℕ) (expectedPeerId : Option String) (phase : TaskPhase)
    (slot : Option ℕ) : PairingSupervisor :=
  { s with
    minted := s.minted + 1
    sessions := s.sessions ++
      [{ sessionId := newSessionId now s.minted
         deps := { s.deps with expectedPeerId := expectedPeerId }
         phase := phase
         session := .start s.trust
         verdict := none
         answered := false
         slot := slot }] }

/-- `start_pairing`: a session with a discovered peer is opened, unless there are too many. -/
def startPairing (s : PairingSupervisor) (now : ℕ) (machineId : String) :
    PairingSupervisor × Except PairingRefusal Unit :=
  let s := s.gcPairingTasks
  if maxTasks ≤ s.tasks.length then (s, .error .tooMany)
  else
    match s.peers machineId with
    | none => (s, .error (.notDiscovered machineId))
    | some peer =>
        let id := newSessionId now s.minted
        let spawned := s.spawn now (some peer.machineId) .connecting none
        (gcPairingTasks
          { spawned with confirm := spawned.confirm ++ [id], tasks := spawned.tasks ++ [id] }, .ok ())

/-- `Request::ConfirmPairing`: the verdict is sent to the session of this id, and its sender is gone
with it. -/
def confirmPairing (s : PairingSupervisor) (id : String) (accept : Bool) :
    PairingSupervisor × Except PairingRefusal Unit :=
  if id ∈ s.confirm then
    -- the verdict is lost on a session that has ended
    let sent := s.update id fun t =>
      { t with answered := true, verdict := if t.isFinished then t.verdict else some accept }
    ({ sent with
        confirm := sent.confirm.filter fun x => x ≠ id
        answers := sent.answers ++ [(id, accept)] }, .ok ())
  else (s, .error (.noPending id))

/-! ## The listener -/

/-- The sessions of an accept loop that are not over. -/
def serving (s : PairingSupervisor) (listener : ℕ) : ℕ :=
  s.sessions.countP fun t => t.slot == some listener && !t.isFinished

/-- The accept loop, with a slot in hand, accepts a connection. -/
def accept (s : PairingSupervisor) (now : ℕ) : PairingSupervisor :=
  match s.listener with
  | none => s
  | some listener =>
      if s.offered.isNone ∧ s.serving listener < slots then
        { s.spawn now none .unregistered (some listener) with
          offered := some (newSessionId now s.minted) }
      else s

/-- What is offered goes into the channel, once there is room. -/
def offer (s : PairingSupervisor) : PairingSupervisor :=
  match s.offered with
  | none => s
  | some id =>
      if s.incoming.length < incomingCapacity then
        { s with incoming := s.incoming ++ [id], offered := none }
      else s

/-- `handle_incoming_pairing`, for the oldest session of the channel: its sender is kept, and it may
run. -/
def takeIncoming (s : PairingSupervisor) : PairingSupervisor :=
  match s.incoming with
  | [] => s
  | id :: rest =>
      gcPairingTasks
        ({ s with
            incoming := rest
            confirm := s.confirm ++ [id]
            tasks := s.tasks ++ [id] }.update id fun t => { t with phase := .running })

/-- Sessions the supervisor has not got to are dropped: their tasks end without having run. -/
def drop (s : PairingSupervisor) (ids : List String) : PairingSupervisor :=
  { s with
    sessions := s.sessions.map fun t => if t.sessionId ∈ ids then { t with phase := .over } else t }

/-- The accept loop is aborted, with what it waits to put into the channel; the channel goes with it
when the port has changed. -/
def retireListener (s : PairingSupervisor) (withChannel : Bool) : PairingSupervisor :=
  let dropped := if withChannel then s.offered.toList ++ s.incoming else s.offered.toList
  { s.drop dropped with
    listener := none
    offered := none
    incoming := if withChannel then [] else s.incoming }

/-- The machine is renamed: the sessions to come show the new name. -/
def rename (s : PairingSupervisor) (displayName : String) : PairingSupervisor :=
  { s with deps := { s.deps with displayName := displayName } }.retireListener false

/-- A new accept loop with a channel of its own; the old channel is dropped. -/
def bindListener (s : PairingSupervisor) : PairingSupervisor :=
  { s.drop s.incoming with
    listener := some s.listeners
    listeners := s.listeners + 1
    incoming := [] }

/-! ## The sessions -/

/-- The TCP connection of a session we opened is there, or it failed. -/
def connect (s : PairingSupervisor) (id : String) (ok : Bool) : PairingSupervisor :=
  s.update id fun t =>
    if t.phase = .connecting then { t with phase := if ok then .running else .over } else t

/-- Nobody can send the verdict of a session any more. -/
def senderGone (s : PairingSupervisor) (t : SessionTask) : Bool :=
  !t.answered && !s.confirm.contains t.sessionId && !s.incoming.contains t.sessionId &&
    s.offered != some t.sessionId

/-- The trust store a session finds, and the store it leaves. -/
def run (s : PairingSupervisor) (t : SessionTask) (move : PairMove) : SessionTask :=
  { t with session := { t.session with trust := s.trust }.step t.deps move }

/-- A session takes a step. A verdict stays in its channel until the session waits for it. -/
def stepSession (s : PairingSupervisor) (id : String) (move : PairMove) : PairingSupervisor :=
  match s.session id with
  | none => s
  | some t =>
      if t.phase ≠ .running then s
      else
        match move with
        | .verdict accept =>
            if t.verdict = some accept ∧ t.session.stage.takesVerdict = true then
              s.update id fun t => { s.run t (.verdict accept) with verdict := none }
            else s
        | .verdictDropped =>
            if t.verdict.isNone ∧ s.senderGone t = true then
              s.update id fun t => s.run t .verdictDropped
            else s
        | .trustChanges _ => s
        | move =>
            { s.update id fun t => s.run t move with trust := (s.run t move).session.trust }

end PairingSupervisor

/-- What can happen, in any order: requests, the listener, the network, and steps of the sessions. -/
inductive PairingInput where
  | startPairing (now : ℕ) (machineId : String)
  | confirmPairing (id : String) (accept : Bool)
  | gc
  | accept (now : ℕ)
  | offer
  | takeIncoming
  | rename (displayName : String)
  | retireListener
  | bindListener
  | connect (id : String) (ok : Bool)
  | session (id : String) (move : PairMove)
  | found (peer : DiscoveredPeer)
  | lost (machineId : String)
  | revokeTrust (machineId : String) (fails : Option SaveFault)

namespace PairingSupervisor

/-- One step. Binding a listener is for the case that there is none. -/
def step (s : PairingSupervisor) : PairingInput → PairingSupervisor
  | .startPairing now machineId => (s.startPairing now machineId).1
  | .confirmPairing id accept => (s.confirmPairing id accept).1
  | .gc => s.gcPairingTasks
  | .accept now => s.accept now
  | .offer => s.offer
  | .takeIncoming => s.takeIncoming
  | .rename displayName => s.rename displayName
  | .retireListener => s.retireListener true
  -- only when there is none
  | .bindListener => if s.listener.isNone then s.bindListener else s
  | .connect id ok => s.connect id ok
  | .session id move => s.stepSession id move
  | .found peer => { s with peers := Function.update s.peers peer.machineId (some peer) }
  | .lost machineId => { s with peers := Function.update s.peers machineId none }
  | .revokeTrust machineId fails => { s with trust := (s.trust.remove machineId fails).1 }

/-- The supervisor as it starts, with a listener and no session. -/
def start (deps : PairDeps) (trust : TrustedPeerStore) : PairingSupervisor where
  deps := deps
  trust := trust
  peers := fun _ => none
  confirm := []
  tasks := []
  incoming := []
  offered := none
  listener := some 0
  listeners := 1
  minted := 1
  sessions := []
  answers := []

end PairingSupervisor

end Synbad
