import Synbad.Supervisor.Daemon
import Synbad.Sync.Session
import Mathlib.Logic.Function.Basic

/-! # A node

The supervisor together with what config sync adds to it: the peers it sees, the trust store, one
outbound task per peer with the head at which it was dialed, the heads that are confirmed, the
backoff, the channel of requests, and the sessions themselves. Everything that can happen is one step
of the node: an event of the loop, the oldest request of the channel being handled, a discovery event,
the reconcile tick, a revocation, a pairing, or one session taking one step. Sessions and the loop are
tasks of their own, so the steps come in any order.

`Node.step` is given, with each input, what the outside decides while the step is taken (`Outside`):
the clock, what is written to the disk and fails, in which order the peers are gone through and
whether the trust store is locked. A task that is aborted may still take steps until the runtime drops
it. What the sessions do at each of their awaits is in `Sync.Session`; this module adds what they need
of the daemon, the channel and the store. Its theorems are in the modules after it. -/

namespace Synbad

/-! ## Backoff -/

/-- `AudioBackoff`, which sync uses as well: when the next attempt may be made, and how many have
failed. -/
structure AudioBackoff where
  nextAttempt : ℕ
  attempts : ℕ
  deriving DecidableEq, Repr

namespace AudioBackoff

/-- `AUDIO_BACKOFF_MIN`, in seconds: the delay after the first failure. -/
def minSecs : ℕ := 1

/-- `AUDIO_BACKOFF_MAX`, in seconds: the longest delay. -/
def maxSecs : ℕ := 60

/-- `u64::checked_shl`: a shift by the width or more is refused, and bits shifted out are lost. -/
def checkedShl (n shift : ℕ) : Option ℕ := if 64 ≤ shift then none else some (n * 2 ^ shift % 2 ^ 64)

/-- `AudioBackoff::delay`, in milliseconds: it doubles with each attempt, up to the longest delay. -/
def delay (attempts : ℕ) : ℕ := min ((checkedShl minSecs (attempts - 1)).getD maxSecs) maxSecs * 1000

/-- `AudioBackoff::after_failure`: one attempt more, and the delay that goes with it from now on. -/
def afterFailure (now : ℕ) (prev : Option AudioBackoff) : AudioBackoff :=
  let attempts := (prev.map fun p => Supervisor.saturatingSucc p.attempts).getD 1
  ⟨now + delay attempts, attempts⟩

end AudioBackoff

/-! ## State -/

/-- Who waits for the answer to a request, a session by its number and direction. -/
inductive Requester where
  | outbound (id : ℕ)
  | inbound (id : ℕ)
  deriving DecidableEq

/-- The supervisor with its sync bookkeeping and the sessions spawned so far, by number. Maps from
machine ids are functions. -/
structure Node where
  supervisor : Supervisor
  peers : String → Option DiscoveredPeer
  trust : TrustedPeerStore
  /-- One outbound task per peer: the head at dial time and the number of the session. -/
  syncTasks : String → Option (String × ℕ)
  syncConfirmed : String → Option String
  syncBackoff : String → Option AudioBackoff
  /-- The channel of requests, oldest first, each with the session that waits for its answer. -/
  syncOps : List (SyncOp × Requester)
  outbound : List Outbound
  inbound : List Inbound
  /-- The loop has returned, and nothing happens any more. -/
  halted : Bool

/-- What the outside decides while a node takes a step. -/
structure Outside where
  env : Env
  /-- The order in which the peers are gone through. One that is missing is not looked at, which is
  what happens to a peer when the trust store is busy. -/
  order : List String
  /-- `try_lock` on the trust store fails when this peer is looked at. -/
  trustBusy : String → Bool

/-- Set an entry of a map, over the one that may be there. -/
abbrev mapInsert {V : Type} (m : String → Option V) (k : String) (v : V) : String → Option V :=
  Function.update m k (some v)

/-- Remove an entry of a map, if there is one. -/
abbrev mapRemove {V : Type} (m : String → Option V) (k : String) : String → Option V :=
  Function.update m k none

/-- How often the state was pushed to the peers. -/
def Effect.pushes (effects : List Effect) : ℕ :=
  effects.countP fun
    | .pushedToPeers => true
    | _ => false

namespace Node

/-- The node right after `Supervisor::new`: it sees no peer and has begun no session. -/
def new (s : Supervisor) (trust : TrustedPeerStore) : Node where
  supervisor := s
  peers := fun _ => none
  trust := trust
  syncTasks := fun _ => none
  syncConfirmed := fun _ => none
  syncBackoff := fun _ => none
  syncOps := []
  outbound := []
  inbound := []
  halted := false

/-- The capacity of the channel of requests: a session that finds it full waits. -/
def syncOpsCapacity : ℕ := 32

/-- The versioned document, which the supervisor holds. -/
def versioned (n : Node) : VersionedConfig := n.supervisor.versioned

/-- `self.versioned.head_hash()`: the head of the current document, by which peers notice a change. -/
def head (deps : SyncDeps) (n : Node) : String := n.versioned.headHash deps.digest

/-! ## Dialing -/

/-- The guards of `maybe_pull_from` that keep a peer from being dialed: a task in flight, a
confirmed head, or a backoff that has not passed. -/
def holdsBack (deps : SyncDeps) (n : Node) (now : ℕ) (machineId : String) : Bool :=
  (n.syncTasks machineId).isSome || n.syncConfirmed machineId == some (n.head deps) ||
    (n.syncBackoff machineId).any fun b => now < b.nextAttempt

/-- `sync::spawn_outbound` and the entry for its task, which records the head at which it was
dialed. -/
def dial (deps : SyncDeps) (n : Node) (peer : DiscoveredPeer) : Node :=
  { n with
    outbound := n.outbound ++ [Outbound.spawned peer]
    syncTasks := mapInsert n.syncTasks peer.machineId (n.head deps, n.outbound.length) }

/-- `maybe_pull_from`: dial a trusted peer that has a sync port, unless a guard holds it back or the
trust store is locked just then. -/
def maybePullFrom (deps : SyncDeps) (out : Outside) (n : Node) (peer : DiscoveredPeer) : Node :=
  if peer.syncPort = 0 then n
  else if n.holdsBack deps out.env.now peer.machineId then n
  else if out.trustBusy peer.machineId then n
  else if n.trust.contains peer.machineId then n.dial deps peer
  else n

/-- The loop over `self.peers.values()` that ends a push and a tick. -/
def pullAll (deps : SyncDeps) (out : Outside) (n : Node) : Node :=
  (out.order.filterMap n.peers).foldl (maybePullFrom deps out) n

/-- `push_to_trusted_peers`: forget what is confirmed and all backoffs, and dial everybody. -/
def pushToTrustedPeers (deps : SyncDeps) (out : Outside) (n : Node) : Node :=
  pullAll deps out { n with syncConfirmed := fun _ => none, syncBackoff := fun _ => none }

/-! ## The reconcile tick -/

/-- What a finished task of a peer left: its head and whether it returned `true`. -/
def outcome (n : Node) (machineId : String) : Option (String × Bool) :=
  match n.syncTasks machineId with
  | none => none
  | some (head, id) =>
      match n.outbound[id]? with
      | none => none
      | some o => if o.stage.isFinished then some (head, o.stage.succeeded) else none

/-- The first half of `reconcile_sync_sessions`: the results of the finished tasks are taken. -/
def reap (n : Node) (now : ℕ) : Node :=
  { n with
    syncTasks := fun p => if (n.outcome p).isSome then none else n.syncTasks p
    syncConfirmed := fun p =>
      match n.outcome p with
      | some (head, true) => some head
      | _ => n.syncConfirmed p
    syncBackoff := fun p =>
      match n.outcome p with
      | some (_, true) => none
      | some (_, false) => some (AudioBackoff.afterFailure now (n.syncBackoff p))
      | none => n.syncBackoff p }

/-- `reconcile_sync_sessions`: take the results of the finished tasks, and dial whoever is due. -/
def reconcileSyncSessions (deps : SyncDeps) (out : Outside) (n : Node) : Node :=
  (n.reap out.env.now).pullAll deps out

/-! ## Discovery -/

/-- The comparison of `handle_discovery`: nothing the user cares about has changed. -/
def unchanged (old new : DiscoveredPeer) : Bool :=
  old.machineId == new.machineId && old.fingerprint == new.fingerprint &&
    old.configHead == new.configHead && old.audioPort == new.audioPort && old.host == new.host &&
    old.addresses == new.addresses && old.servicePort == new.servicePort &&
    old.syncPort == new.syncPort && old.corePort == new.corePort &&
    old.displayName == new.displayName

/-- `handle_discovery`, a peer found: where something has changed about it, its confirmed head and its
backoff are forgotten and it is dialed. -/
def found (deps : SyncDeps) (out : Outside) (n : Node) (peer : DiscoveredPeer) : Node :=
  let same := (n.peers peer.machineId).any fun p => unchanged p peer
  let n := { n with peers := mapInsert n.peers peer.machineId peer }
  if same then n
  else
    maybePullFrom deps out
      { n with
        syncConfirmed := mapRemove n.syncConfirmed peer.machineId
        syncBackoff := mapRemove n.syncBackoff peer.machineId }
      peer

/-- `task.abort()`: the runtime may drop the task from now on. -/
def abort (n : Node) (id : ℕ) : Node :=
  match n.outbound[id]? with
  | none => n
  | some o => { n with outbound := n.outbound.set id { o with aborted := true } }

/-- `handle_discovery`, a peer lost: everything that is kept about it goes, and a task of it is
aborted. -/
def lost (n : Node) (machineId : String) : Node :=
  match n.peers machineId with
  | none => n
  | some _ =>
      let n := { n with
        peers := mapRemove n.peers machineId
        syncConfirmed := mapRemove n.syncConfirmed machineId
        syncBackoff := mapRemove n.syncBackoff machineId }
      match n.syncTasks machineId with
      | none => n
      | some (_, id) => { n with syncTasks := mapRemove n.syncTasks machineId }.abort id

/-! ## The loop -/

/-- An event of the loop other than those of sync. A local edit that moved the head pushes. -/
def handleLoop (deps : SyncDeps) (out : Outside) (n : Node) (e : LoopEvent) : Node :=
  let s := n.supervisor.handle out.env e
  if s.leavesLoop e then { n with supervisor := s.stopCore, halted := true }
  else if Effect.pushes n.supervisor.effects < Effect.pushes s.effects then
    { n with supervisor := s }.pushToTrustedPeers deps out
  else { n with supervisor := s }

/-- The answer to a request reaches whoever asked, if that session is still there. -/
def answer (deps : SyncDeps) (n : Node) (reply : VersionedConfig) : Requester → Node
  | .outbound id =>
      match n.outbound[id]? with
      | none => n
      | some o => { n with outbound := n.outbound.set id (o.answer reply) }
  | .inbound id =>
      match n.inbound[id]? with
      | none => n
      | some i => { n with inbound := n.inbound.set id (i.answer deps reply) }

/-- The loop takes the oldest request of the channel. -/
def handleOp (deps : SyncDeps) (out : Outside) (n : Node) : Node :=
  match n.syncOps with
  | [] => n
  | (op, requester) :: rest =>
      let s := n.supervisor.handle out.env (.syncOp op)
      { n with supervisor := s, syncOps := rest }.answer deps s.versioned requester

/-- The `RevokeTrust` arm of `handle_request`: the entry is removed and the store saved, and the
answer says how that went. -/
def revokeTrust (n : Node) (machineId : String) (fails : Option SaveFault) : Node × Response :=
  let removed := n.trust.remove machineId fails
  ({ n with trust := removed.1 },
    match removed.2 with
    | .ok true => .ok
    | .ok false => .error ("peer " ++ debugStr n.supervisor.host.unicode machineId ++ " is not trusted")
    | .error e => .error e.message)

/-- A pairing session persists its peer: an entry of the trust store is added or replaced, and the
store is saved. -/
def pair (n : Node) (peer : TrustedPeer) (fails : Option SaveFault) : Node :=
  { n with trust := (n.trust.upsert peer fails).1 }

/-! ## Sessions -/

/-- A session puts a request into the channel, if there is room. -/
def ask (n : Node) (op : SyncOp) (requester : Requester) (asked : Node → Node) : Node :=
  if n.syncOps.length < syncOpsCapacity then
    asked { n with syncOps := n.syncOps ++ [(op, requester)] }
  else n

/-- An outbound session takes a step: a request of it goes into the channel, and any other move is its
own. -/
def stepOutbound (deps : SyncDeps) (n : Node) (id : ℕ) (move : OutboundMove) : Node :=
  match n.outbound[id]? with
  | none => n
  | some o =>
      match move, o.stage with
      | .askSnapshot, .wantsSnapshot trusted =>
          n.ask .snapshot (.outbound id) fun n =>
            { n with outbound := n.outbound.set id { o with stage := .awaitsSnapshot trusted } }
      | .askMerge, .wantsMerge trusted ourFrame peerFrame =>
          n.ask (.merge peerFrame.fromMachineId peerFrame.state) (.outbound id) fun n =>
            { n with
              outbound := n.outbound.set id { o with stage := .awaitsMerge trusted ourFrame peerFrame } }
      | move, _ => { n with outbound := n.outbound.set id (o.advance deps n.trust move) }

/-- An inbound session takes a step: a request of it goes into the channel, and any other move is its
own. -/
def stepInbound (deps : SyncDeps) (n : Node) (id : ℕ) (move : InboundMove) : Node :=
  match n.inbound[id]? with
  | none => n
  | some i =>
      match move, i.stage with
      | .askSnapshot, .wantsSnapshot trusted peerFrame =>
          n.ask .snapshot (.inbound id) fun n =>
            { n with inbound := n.inbound.set id { i with stage := .awaitsSnapshot trusted peerFrame } }
      | .askMerge, .wantsMerge trusted peerFrame preHead =>
          n.ask (.merge trusted.machineId peerFrame.state) (.inbound id) fun n =>
            { n with
              inbound := n.inbound.set id { i with stage := .awaitsMerge trusted peerFrame preHead } }
      | move, _ => { n with inbound := n.inbound.set id (i.advance deps n.trust move) }

end Node

/-- What can happen to a node, in any order. -/
inductive NodeInput where
  /-- The loop picks up an event other than those below. -/
  | loop (e : LoopEvent)
  /-- The loop picks up the oldest request of the channel. -/
  | syncOp
  | found (peer : DiscoveredPeer)
  | lost (machineId : String)
  | tick
  | revokeTrust (machineId : String) (fails : Option SaveFault)
  | pair (peer : TrustedPeer) (fails : Option SaveFault)
  | outbound (id : ℕ) (move : OutboundMove)
  /-- The listener accepts a connection, with which an inbound session begins. -/
  | accept
  | inbound (id : ℕ) (move : InboundMove)
  /-- Someone else writes or removes `config.toml`, which the loop notices later or not at all. -/
  | editConfig (file : ConfigFile)

namespace Node

/-- One step of a node whose loop runs. A request of a session reaches it through the channel only. -/
def stepRunning (deps : SyncDeps) (out : Outside) (n : Node) : NodeInput → Node
  -- requests of sessions come through the channel
  | .loop (.syncOp _) => n
  | .loop e => n.handleLoop deps out e
  | .syncOp => n.handleOp deps out
  | .found peer => n.found deps out peer
  | .lost machineId => n.lost machineId
  | .tick => n.reconcileSyncSessions deps out
  | .revokeTrust machineId fails => (n.revokeTrust machineId fails).1
  | .pair peer fails => n.pair peer fails
  | .outbound id move => n.stepOutbound deps id move
  | .accept => { n with inbound := n.inbound ++ [⟨.accepted, none⟩] }
  | .inbound id move => n.stepInbound deps id move
  | .editConfig file =>
      { n with supervisor := { n.supervisor with disk := { n.supervisor.disk with config := file } } }

/-- One step of a node: none once its loop has returned. -/
def step (deps : SyncDeps) (n : Node) (input : Outside × NodeInput) : Node :=
  if n.halted then n else n.stepRunning deps input.1 input.2

end Node

end Synbad
