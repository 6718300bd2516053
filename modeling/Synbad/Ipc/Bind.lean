import Mathlib.Logic.Function.Basic
import Mathlib.Tactic.IntervalCases
import Synbad.Lib.SocketPath
import Synbad.Lib.Run

/-! # Binding the daemon's socket

`Listener::bind` of `synbad-ipc/src/server.rs`, with every launch of the daemon a process of its own:
each takes a lock that the kernel gives to one process at a time and takes back when the process is
gone, and only then binds, or finds the path in use, makes sure that nobody answers there, removes it
and binds. Between any two of these operations another launch may take its own, and any process may
crash.

How the library that opens the socket does it is a parameter (`ListenerOptions`), with what it
documents: a path where anything stands is in use, and otherwise a new socket is bound and listens.
When it removes the name of a socket that is dropped is left open, as it may come late.

`Inv` says who may do what: the lock goes with the stages that need it, every process has a socket of
its own, and what was found out about the path still holds as long as the lock is held. From it follow
three results, for every interleaving: at most one daemon owns the socket (`one_daemon`), the daemon
is found at its path as long as no name is removed late (`daemon_stands`), and a launch that is alone
recovers the path exactly when nobody answers there (`Recovers`). -/

namespace Synbad

/-- Why a launch has no listener. -/
inductive BindError where
  /-- Another process has the lock, so there is a daemon, or one is about to be. -/
  | locked
  | addrInUse
  | notFound
  /-- Any other failure of an operation, with its text. -/
  | io (e : String)
  deriving DecidableEq, Repr

/-- Where a launch stands in `Listener::bind`, and after it. -/
inductive BindStage where
  | idle
  | launched
  /-- It has the lock, and is to bind its socket. -/
  | locked
  /-- The path is in use, and it is to find out by what. -/
  | inUse
  /-- What stands there is a socket, and it is to connect to it. -/
  | socketSeen
  /-- Nobody answered, and it is to remove what stands there. -/
  | refused
  /-- The entry is removed, and it is to bind again. -/
  | removed
  | listening (id : ℕ)
  /-- The `Listener` is dropped, the lock with it; its task has yet to go. -/
  | dropped (id : ℕ)
  /-- The socket is closed; the library has yet to remove the name. -/
  | closed
  /-- The process is over, and what it held is let go of. -/
  | gone
  | failed (e : BindError)
  deriving DecidableEq, Repr

/-- A process has the lock when it stands here. -/
def BindStage.holdsLock : BindStage → Bool
  | .locked => true
  | .inUse => true
  | .socketSeen => true
  | .refused => true
  | .removed => true
  | .listening _ => true
  | _ => false

/-- The socket of a process, from its binding until it is closed. -/
def BindStage.socket : BindStage → Option ℕ
  | .listening id => some id
  | .dropped id => some id
  | _ => none

/-- `ListenerOptions::create_tokio` of the library that opens local sockets, with what it documents: a
path where anything stands is in use, and at a free path it binds a new socket and listens on it. -/
structure ListenerOptions where
  /-- The socket and what has become of the path; nothing if the path is in use. -/
  createTokio : SocketPath → Option (ℕ × SocketPath)
  inUse : ∀ e x, e.entry = some x → createTokio e = none
  listens : ∀ e, e.entry = none → createTokio e = e.bind

namespace ListenerOptions

/-- What is documented says all there is to know at this level. -/
theorem createTokio_eq (library : ListenerOptions) (e : SocketPath) :
    library.createTokio e = e.bind := by
  cases hentry : e.entry with
  | none => exact library.listens e hentry
  | some x =>
      rw [library.inUse e x hentry]
      simp [SocketPath.bind, SocketPath.create, hentry]

/-- A library that does all of it in one step: a socket that is bound listens, and nobody comes in
between. -/
def direct : ListenerOptions where
  createTokio := SocketPath.bind
  inUse e x hentry := by simp [SocketPath.bind, SocketPath.create, hentry]
  listens _ _ := rfl

end ListenerOptions

/-- A library that does so in one step each, and removes a name as it closes the socket. -/
structure BindWorld where
  library : ListenerOptions
  endpoint : SocketPath
  /-- The sockets below this number were bound by others. -/
  foreign : ℕ
  lock : Option ℕ
  stage : ℕ → BindStage

/-- What happens next, at one of the processes or to a socket of somebody else. -/
inductive BindInput where
  | launch (p : ℕ)
  | flock (p : ℕ)
  | bind (p : ℕ)
  | metadata (p : ℕ)
  /-- Connect to what stands there; the connection may not come up in time. -/
  | probe (p : ℕ) (timeout : Bool)
  | remove (p : ℕ)
  | rebind (p : ℕ)
  /-- An operation of the process fails, with this text. -/
  | fail (p : ℕ) (e : String)
  /-- The `Listener` is dropped, and its socket closed. -/
  | drop (p : ℕ)
  /-- The task that was aborted is gone, and the socket with it. -/
  | close (p : ℕ)
  /-- The library removes the name of a socket it has closed. -/
  | reclaim (p : ℕ)
  | crash (p : ℕ)
  /-- A socket nobody here has bound is closed by whoever has it. -/
  | outsider (id : ℕ)

namespace BindWorld

variable (w : BindWorld)

/-- A process moves on, and the others stay where they are. -/
def goTo (p : ℕ) (stage : BindStage) : BindWorld := { w with stage := Function.update w.stage p stage }

/-- A process lets go of the lock, if it has it. -/
def release (p : ℕ) : BindWorld := if w.lock = some p then { w with lock := none } else w

/-- A process fails, and lets go of the lock. -/
def failWith (p : ℕ) (e : BindError) : BindWorld := (w.release p).goTo p (.failed e)

/-- `create_tokio`, and where the process is to go on if the path is in use. -/
def create (p : ℕ) (inUse : BindWorld) : BindWorld :=
  match w.library.createTokio w.endpoint with
  | some (id, endpoint) => { w with endpoint := endpoint }.goTo p (.listening id)
  | none => inUse

/-- One step of the process that is named; a step that is not the next one there changes nothing. -/
def step (w : BindWorld) : BindInput → BindWorld
  | .launch p => if w.stage p = .idle then w.goTo p .launched else w
  | .flock p =>
      if w.stage p = .launched then
        if w.lock.isNone then { w with lock := some p }.goTo p .locked else w.failWith p .locked
      else w
  | .bind p => if w.stage p = .locked then w.create p (w.goTo p .inUse) else w
  | .metadata p =>
      if w.stage p = .inUse then
        match w.endpoint.entry with
        | none => w.failWith p .notFound
        | some (.socket _) => w.goTo p .socketSeen
        | some .other => w.failWith p .addrInUse
      else w
  | .probe p timeout =>
      if w.stage p = .socketSeen then
        -- only a refusal shows that nobody listens
        if timeout || w.endpoint.entry.isNone || w.endpoint.answers then w.failWith p .addrInUse
        else w.goTo p .refused
      else w
  | .remove p =>
      if w.stage p = .refused then
        if w.endpoint.entry.isNone then w.failWith p .notFound
        else { w with endpoint := w.endpoint.unlink }.goTo p .removed
      else w
  | .rebind p => if w.stage p = .removed then w.create p (w.failWith p .addrInUse) else w
  | .fail p e =>
      match w.stage p with
      | .launched | .locked | .inUse | .refused | .removed => w.failWith p (.io e)
      | _ => w
  | .drop p =>
      match w.stage p with
      | .listening id => (w.release p).goTo p (.dropped id)
      | _ => w
  | .close p =>
      match w.stage p with
      | .dropped id => { w with endpoint := w.endpoint.close id }.goTo p .closed
      | _ => w
  | .reclaim p =>
      if w.stage p = .closed then { w with endpoint := w.endpoint.unlink }.goTo p .gone else w
  | .crash p =>
      match w.stage p with
      -- the kernel closes what the process has open, one by one
      | .listening id => (w.release p).goTo p (.dropped id)
      | .dropped id => { w with endpoint := w.endpoint.close id }.goTo p .gone
      | _ => (w.release p).goTo p .gone
  | .outsider id => if id < w.foreign then { w with endpoint := w.endpoint.close id } else w

/-- Before the first launch: what stands at the path is anybody's. -/
def start (library : ListenerOptions) (endpoint : {e : SocketPath // e.Wf}) : BindWorld :=
  ⟨library, endpoint, endpoint.val.made, none, fun _ => .idle⟩

/-! ## The invariant -/

variable {w} {p q : ℕ} {stage : BindStage}

/-- **Who may do what**: the lock goes with the stages that need it, every process has a socket of its
own, and what was found out about the path under the lock is still true. -/
structure Inv (w : BindWorld) : Prop where
  wf : w.endpoint.Wf
  foreign : w.foreign ≤ w.endpoint.made
  holds : ∀ p, w.lock = some p ↔ (w.stage p).holdsLock = true
  live : ∀ p id, (w.stage p).socket = some id → id ∈ w.endpoint.listening ∧ w.foreign ≤ id
  apart : ∀ p q id, (w.stage p).socket = some id → (w.stage q).socket = some id → p = q
  refused : ∀ p, w.stage p = .refused → w.endpoint.answers = false
  removed : ∀ p, w.stage p = .removed → w.endpoint.entry = none

namespace Inv

/-- Before the first launch there is nothing to keep. -/
theorem start (library : ListenerOptions) (endpoint : {e : SocketPath // e.Wf}) :
    (start library endpoint).Inv where
  wf := endpoint.property
  foreign := Nat.le_refl _
  holds p := by simp [BindWorld.start, BindStage.holdsLock]
  live p id hsocket := by cases hsocket
  apart p q id hsocket := by cases hsocket
  refused p hstage := by cases hstage
  removed p hstage := by cases hstage

/-- The holder of the lock is the only one at a stage that needs it. -/
theorem unique (h : w.Inv) (hp : (w.stage p).holdsLock = true) (hq : (w.stage q).holdsLock = true) :
    p = q := by
  have hlock := (h.holds p).mpr hp
  rw [(h.holds q).mpr hq] at hlock
  exact (Option.some.inj hlock).symm

/-- A process moves on at the same path, with or without the lock. -/
theorem move (h : w.Inv) {lock : Option ℕ}
    (hlock : ∀ q, lock = some q ↔ (Function.update w.stage p stage q).holdsLock = true)
    (hsocket : stage.socket = none ∨ stage.socket = (w.stage p).socket)
    (hrefused : stage = .refused → w.endpoint.answers = false)
    (hremoved : stage = .removed → w.endpoint.entry = none) :
    ({ w with lock := lock }.goTo p stage).Inv := by
  -- whoever has a socket has had it before
  have hkept : ∀ q id, (Function.update w.stage p stage q).socket = some id →
      (w.stage q).socket = some id := by
    intro q id hid
    by_cases hq : q = p
    · subst hq
      rw [Function.update_self] at hid
      rcases hsocket with hnone | hsame
      · rw [hnone] at hid
        cases hid
      · exact hsame ▸ hid
    · rwa [Function.update_of_ne hq] at hid
  constructor
  · exact h.wf
  · exact h.foreign
  · exact hlock
  · intro q id hid
    exact h.live q id (hkept q id hid)
  · intro q r id hq hr
    exact h.apart q r id (hkept q id hq) (hkept r id hr)
  · intro q hq
    simp only [goTo] at hq
    by_cases hqp : q = p
    · subst hqp
      rw [Function.update_self] at hq
      exact hrefused hq
    · rw [Function.update_of_ne hqp] at hq
      exact h.refused q hq
  · intro q hq
    simp only [goTo] at hq
    by_cases hqp : q = p
    · subst hqp
      rw [Function.update_self] at hq
      exact hremoved hq
    · rw [Function.update_of_ne hqp] at hq
      exact h.removed q hq

/-- The lock stays with whom it is, if the process that moves needs it as before. -/
theorem holds_same (h : w.Inv) (hsame : stage.holdsLock = (w.stage p).holdsLock) (q : ℕ) :
    w.lock = some q ↔ (Function.update w.stage p stage q).holdsLock = true := by
  rw [h.holds q]
  by_cases hq : q = p
  · rw [hq, Function.update_self, hsame]
  · rw [Function.update_of_ne hq]

/-- The lock is let go of by a process whose next stage does not need it. -/
theorem holds_release (h : w.Inv) (hstage : stage.holdsLock = false) (q : ℕ) :
    (w.release p).lock = some q ↔ (Function.update w.stage p stage q).holdsLock = true := by
  have hother : ∀ q, q ≠ p → ((w.release p).lock = some q ↔ w.lock = some q) := by
    intro q hq
    unfold release
    split
    · next hheld =>
      rw [hheld]
      simp [hq.symm]
    · exact Iff.rfl
  by_cases hq : q = p
  · rw [hq, Function.update_self, hstage]
    unfold release
    split
    · simp
    · next hfree => simpa using hfree
  · rw [Function.update_of_ne hq, hother q hq, h.holds q]

/-- A process that goes on keeps it, if lock and socket stay with it and what it has found out is
so. -/
theorem step_on (h : w.Inv) (hsame : stage.holdsLock = (w.stage p).holdsLock)
    (hsocket : stage.socket = none ∨ stage.socket = (w.stage p).socket)
    (hrefused : stage = .refused → w.endpoint.answers = false)
    (hremoved : stage = .removed → w.endpoint.entry = none) : (w.goTo p stage).Inv :=
  h.move (h.holds_same hsame) hsocket hrefused hremoved

/-- A process that lets go of the lock keeps it. -/
theorem leave (h : w.Inv) (hstage : stage.holdsLock = false)
    (hsocket : stage.socket = none ∨ stage.socket = (w.stage p).socket) :
    ((w.release p).goTo p stage).Inv := by
  have hworld : w.release p = { w with lock := (w.release p).lock } := by
    unfold release
    split <;> rfl
  rw [hworld]
  refine h.move (h.holds_release hstage) hsocket ?_ ?_
  · rintro rfl
    cases hstage
  · rintro rfl
    cases hstage

/-- A failure keeps it. -/
theorem failWith (h : w.Inv) (e : BindError) : (w.failWith p e).Inv := h.leave rfl (Or.inl rfl)

/-- Nothing of what is known is lost when the path is freed. -/
theorem unlink (h : w.Inv) : ({ w with endpoint := w.endpoint.unlink } : BindWorld).Inv where
  wf := h.wf.unlink
  foreign := h.foreign
  holds := h.holds
  live := h.live
  apart := h.apart
  refused _ _ := rfl
  removed _ _ := rfl

/-- A socket that no process here has is closed. -/
theorem close (h : w.Inv) {id : ℕ} (hfree : ∀ p, (w.stage p).socket ≠ some id) :
    ({ w with endpoint := w.endpoint.close id } : BindWorld).Inv where
  wf := h.wf.close id
  foreign := h.foreign
  holds := h.holds
  live p id' hsocket := by
    obtain ⟨hlive, hours⟩ := h.live p id' hsocket
    refine ⟨SocketPath.mem_close.mpr ⟨?_, hlive⟩, hours⟩
    rintro rfl
    exact hfree p hsocket
  apart := h.apart
  refused p hstage := SocketPath.answers_close (h.refused p hstage)
  removed := h.removed

/-- A process that closes its socket keeps the invariant. -/
theorem closed (h : w.Inv) {id : ℕ} (hstage : w.stage p = .dropped id)
    (hlock : stage.holdsLock = false) (hnone : stage.socket = none) :
    ({ w with endpoint := w.endpoint.close id }.goTo p stage).Inv := by
  have hmoved : (w.goTo p stage).Inv := by
    refine h.step_on (by rw [hlock, hstage]; rfl) (Or.inl hnone) ?_ ?_
    · rintro rfl
      cases hlock
    · rintro rfl
      cases hlock
  refine hmoved.close fun q hsocket => ?_
  simp only [goTo] at hsocket
  by_cases hq : q = p
  · rw [hq, Function.update_self, hnone] at hsocket
    cases hsocket
  · rw [Function.update_of_ne hq] at hsocket
    exact hq (h.apart q p id hsocket (by rw [hstage]; rfl))

/-- **A socket is bound** by the holder of the lock. -/
theorem create (h : w.Inv) (hheld : (w.stage p).holdsLock = true) {inUse : BindWorld}
    (hinUse : inUse.Inv) : (w.create p inUse).Inv := by
  unfold BindWorld.create
  split
  · next id endpoint hbind =>
    rw [ListenerOptions.createTokio_eq] at hbind
    have hwf := h.wf.bind hbind
    obtain ⟨-, rfl, rfl⟩ := SocketPath.bind_eq_some hbind
    -- the new socket's number is above all that are in use
    have hold : ∀ q, q ≠ p → ∀ id, (w.stage q).socket = some id → id < w.endpoint.made :=
      fun q _ id hid => h.wf.listening id (h.live q id hid).1
    constructor
    · exact hwf
    · exact Nat.le_succ_of_le h.foreign
    · exact h.holds_same hheld.symm
    · intro q id hid
      simp only [goTo] at hid
      by_cases hq : q = p
      · rw [hq, Function.update_self] at hid
        cases hid
        exact ⟨Finset.mem_insert_self _ _, h.foreign⟩
      · rw [Function.update_of_ne hq] at hid
        obtain ⟨hlive, hours⟩ := h.live q id hid
        exact ⟨Finset.mem_insert_of_mem hlive, hours⟩
    · intro q r id hq hr
      simp only [goTo] at hq hr
      by_cases hqp : q = p
      · by_cases hrp : r = p
        · rw [hqp, hrp]
        · rw [hqp, Function.update_self] at hq
          rw [Function.update_of_ne hrp] at hr
          cases hq
          exact absurd (hold r hrp _ hr) (Nat.lt_irrefl _)
      · rw [Function.update_of_ne hqp] at hq
        by_cases hrp : r = p
        · rw [hrp, Function.update_self] at hr
          cases hr
          exact absurd (hold q hqp _ hq) (Nat.lt_irrefl _)
        · rw [Function.update_of_ne hrp] at hr
          exact h.apart q r id hq hr
    · -- nobody else has the lock
      intro q hq
      simp only [goTo] at hq
      by_cases hqp : q = p
      · rw [hqp, Function.update_self] at hq
        cases hq
      · rw [Function.update_of_ne hqp] at hq
        exact absurd (h.unique (by rw [hq]; rfl) hheld) hqp
    · intro q hq
      simp only [goTo] at hq
      by_cases hqp : q = p
      · rw [hqp, Function.update_self] at hq
        cases hq
      · rw [Function.update_of_ne hqp] at hq
        exact absurd (h.unique (by rw [hq]; rfl) hheld) hqp
  · exact hinUse

/-- **Every step** keeps it, of whichever process it is. -/
theorem step (h : w.Inv) (input : BindInput) : (w.step input).Inv := by
  cases input with
  | launch p =>
      simp only [BindWorld.step]
      split
      · next hstage => exact h.step_on (by rw [hstage]; rfl) (Or.inl rfl) nofun nofun
      · exact h
  | flock p =>
      simp only [BindWorld.step]
      split
      · split
        · next hfree =>
          -- nobody had the lock, so taking it makes no second holder
          have hnone : w.lock = none := Option.isNone_iff_eq_none.mp hfree
          refine h.move (fun q => ?_) (Or.inl rfl) nofun nofun
          by_cases hq : q = p
          · rw [hq, Function.update_self]
            exact ⟨fun _ => rfl, fun _ => rfl⟩
          · rw [Function.update_of_ne hq, ← h.holds q, hnone]
            simp [Ne.symm hq]
        · exact h.failWith _
      · exact h
  | bind p =>
      simp only [BindWorld.step]
      split
      · next hstage =>
        refine h.create (by rw [hstage]; rfl) ?_
        exact h.step_on (by rw [hstage]; rfl) (Or.inl rfl) nofun nofun
      · exact h
  | metadata p =>
      simp only [BindWorld.step]
      split
      · next hstage =>
        split
        · exact h.failWith _
        · exact h.step_on (by rw [hstage]; rfl) (Or.inl rfl) nofun nofun
        · exact h.failWith _
      · exact h
  | probe p timeout =>
      simp only [BindWorld.step]
      split
      · next hstage =>
        split
        · exact h.failWith _
        -- nobody answered: that is what the holder of the lock may go by from here on
        · next hrefusal =>
          refine h.step_on (by rw [hstage]; rfl) (Or.inl rfl) (fun _ => ?_) nofun
          rw [Bool.or_eq_true, not_or] at hrefusal
          exact Bool.eq_false_iff.mpr hrefusal.2
      · exact h
  | remove p =>
      simp only [BindWorld.step]
      split
      · next hstage =>
        split
        · exact h.failWith _
        -- the entry that is removed is nobody's who is alive, as the lock is with this process
        · have hunlinked := h.unlink
          exact hunlinked.step_on (by rw [hstage]; rfl) (Or.inl rfl) nofun fun _ => rfl
      · exact h
  | rebind p =>
      simp only [BindWorld.step]
      split
      · next hstage => exact h.create (by rw [hstage]; rfl) (h.failWith _)
      · exact h
  | fail p e =>
      simp only [BindWorld.step]
      split
      all_goals first | exact h.failWith _ | exact h
  | drop p =>
      simp only [BindWorld.step]
      split
      · next hstage => exact h.leave rfl (Or.inr (by rw [hstage]; rfl))
      · exact h
  | close p =>
      simp only [BindWorld.step]
      split
      · next hstage => exact h.closed hstage rfl rfl
      · exact h
  | reclaim p =>
      simp only [BindWorld.step]
      split
      · next hstage =>
        have hunlinked := h.unlink
        exact hunlinked.step_on (by rw [hstage]; rfl) (Or.inl rfl) nofun nofun
      · exact h
  | crash p =>
      simp only [BindWorld.step]
      split
      · next hstage => exact h.leave rfl (Or.inr (by rw [hstage]; rfl))
      -- a process that listened leaves a socket behind, which is closed with it
      · next hstage => exact h.closed hstage rfl rfl
      · exact h.leave rfl (Or.inl rfl)
  | outsider id =>
      simp only [BindWorld.step]
      split
      · next hforeign =>
        -- a socket that is nobody's of ours may come and go as it likes
        refine h.close fun p hsocket => ?_
        exact absurd (h.live p id hsocket).2 (Nat.not_le.mpr hforeign)
      · exact h

end Inv

/-- **Every run** keeps it, from a path at which anything may stand. -/
theorem inv_after (library : ListenerOptions) (endpoint : {e : SocketPath // e.Wf})
    (inputs : List BindInput) (n : ℕ) : (Run.after step (start library endpoint) inputs n).Inv :=
  Run.invariant (Inv.start library endpoint) (fun _ _ _ h => h.step _) n

/-! ## One daemon -/

/-- One process listens with the lock, and removing an entry that answers is not done by any launch. -/
structure Exclusive (w : BindWorld) : Prop where
  owner : ∀ p q i j, w.stage p = .listening i → w.stage q = .listening j → p = q
  answering : ∀ p i, w.stage p = .listening i → i ∈ w.endpoint.listening
  spares : ∀ p, w.endpoint.answers = true → (w.step (.remove p)).endpoint = w.endpoint

/-- **At most one daemon owns the socket**, in every interleaving of launches, crashes and exits, and no
launch takes a path away from whoever answers there. -/
theorem one_daemon (library : ListenerOptions) (endpoint : {e : SocketPath // e.Wf})
    (inputs : List BindInput) (n : ℕ) :
    (Run.after step (start library endpoint) inputs n).Exclusive := by
  have h := inv_after library endpoint inputs n
  constructor
  · intro p q i j hp hq
    exact h.unique (by rw [hp]; rfl) (by rw [hq]; rfl)
  · intro p i hp
    exact (h.live p i (by rw [hp]; rfl)).1
  · intro p hanswers
    simp only [step]
    split
    · next hstage =>
      rw [h.refused p hstage] at hanswers
      cases hanswers
    · rfl

/-! ## Its name -/

/-- Who listens is found at the path: the entry there is that of its socket. -/
def Stands (w : BindWorld) : Prop :=
  ∀ p id, w.stage p = .listening id → w.endpoint.entry = some (.socket id)

/-- The library removes the name of a closed socket before another process has the lock. -/
def Orderly (w : BindWorld) (input : BindInput) : Prop :=
  ∀ p, input = .reclaim p → w.stage p = .closed → w.lock = none

/-- Whoever listens after a step that makes nobody listen did so before. -/
theorem listening_goTo {id : ℕ} (hstage : ∀ id, stage ≠ .listening id)
    (h : (w.goTo p stage).stage q = .listening id) : w.stage q = .listening id := by
  simp only [goTo] at h
  by_cases hq : q = p
  · rw [hq, Function.update_self] at h
    exact absurd h (hstage id)
  · rwa [Function.update_of_ne hq] at h

/-- Letting go of the lock changes nothing at the path. -/
@[simp] theorem release_endpoint : (w.release p).endpoint = w.endpoint := by
  unfold release
  split <;> rfl

/-- Letting go of the lock changes no process. -/
@[simp] theorem release_stage : (w.release p).stage = w.stage := by
  unfold release
  split <;> rfl

namespace Stands

/-- A process that moves on to a stage without a listener, with the path as it was, keeps it. -/
theorem move (h : w.Stands) {w' : BindWorld} (hstage : ∀ id, stage ≠ .listening id)
    (hsame : w'.stage = w.stage) (hentry : w'.endpoint.entry = w.endpoint.entry) :
    (w'.goTo p stage).Stands := by
  intro q id hq
  have hlistens := listening_goTo hstage hq
  rw [hsame] at hlistens
  exact hentry.trans (h q id hlistens)

/-- A failure takes nobody's name away. -/
theorem failWith (h : w.Stands) (e : BindError) : (w.failWith p e).Stands :=
  h.move nofun release_stage (congrArg SocketPath.entry release_endpoint)

/-- The new listener is the only one, and its socket is at the path. -/
theorem create (hinv : w.Inv) (hheld : (w.stage p).holdsLock = true) {inUse : BindWorld}
    (hinUse : inUse.Stands) : (w.create p inUse).Stands := by
  unfold BindWorld.create
  split
  · next id endpoint hbind =>
    rw [ListenerOptions.createTokio_eq] at hbind
    obtain ⟨-, rfl, rfl⟩ := SocketPath.bind_eq_some hbind
    intro q id hq
    simp only [goTo] at hq
    by_cases hqp : q = p
    · rw [hqp, Function.update_self] at hq
      cases hq
      rfl
    · rw [Function.update_of_ne hqp] at hq
      exact absurd (hinv.unique (by rw [hq]; rfl) hheld) hqp
  · exact hinUse

/-- When the path is freed nobody listens, so nobody loses it. -/
theorem vacate (hnobody : ∀ q id, w.stage q ≠ .listening id) (hstage : ∀ id, stage ≠ .listening id) :
    ({ w with endpoint := w.endpoint.unlink }.goTo p stage).Stands :=
  fun q id hq => absurd (listening_goTo hstage hq) (hnobody q id)

/-- **Every step** keeps it, if no name is removed late. -/
theorem step (h : w.Stands) (hinv : w.Inv) {input : BindInput} (horder : w.Orderly input) :
    (w.step input).Stands := by
  cases input with
  | launch p =>
      simp only [BindWorld.step]
      split
      · exact h.move nofun rfl rfl
      · exact h
  | flock p =>
      simp only [BindWorld.step]
      split
      · split
        · exact h.move nofun rfl rfl
        · exact h.failWith _
      · exact h
  | bind p =>
      simp only [BindWorld.step]
      split
      -- the new socket is what stands at the path, as its process is to listen
      · next hstage => exact create hinv (by rw [hstage]; rfl) (h.move nofun rfl rfl)
      · exact h
  | metadata p =>
      simp only [BindWorld.step]
      split
      · split
        · exact h.failWith _
        · exact h.move nofun rfl rfl
        · exact h.failWith _
      · exact h
  | probe p timeout =>
      simp only [BindWorld.step]
      split
      · split
        · exact h.failWith _
        · exact h.move nofun rfl rfl
      · exact h
  | remove p =>
      simp only [BindWorld.step]
      split
      · next hstage =>
        split
        · exact h.failWith _
        · -- the lock is with the process that removes the entry
          refine vacate (fun q id hq => ?_) nofun
          have heq := hinv.unique (p := q) (q := p) (by rw [hq]; rfl) (by rw [hstage]; rfl)
          rw [heq, hstage] at hq
          cases hq
      · exact h
  | rebind p =>
      simp only [BindWorld.step]
      split
      · next hstage => exact create hinv (by rw [hstage]; rfl) (h.failWith _)
      · exact h
  | fail p e =>
      simp only [BindWorld.step]
      split
      all_goals first | exact h.failWith _ | exact h
  | drop p =>
      simp only [BindWorld.step]
      split
      · exact h.move nofun release_stage (congrArg SocketPath.entry release_endpoint)
      · exact h
  | close p =>
      simp only [BindWorld.step]
      split
      · exact h.move nofun rfl rfl
      · exact h
  | reclaim p =>
      simp only [BindWorld.step]
      split
      · next hstage =>
        refine vacate (fun q id hq => ?_) nofun
        -- a name removed late: while another process listens, it has the lock, and then it is not
        -- removed
        have hheld := (hinv.holds q).mpr (by rw [hq]; rfl)
        rw [horder p rfl hstage] at hheld
        cases hheld
      · exact h
  | crash p =>
      simp only [BindWorld.step]
      split
      · exact h.move nofun release_stage (congrArg SocketPath.entry release_endpoint)
      · exact h.move nofun rfl rfl
      · exact h.move nofun release_stage (congrArg SocketPath.entry release_endpoint)
  | outsider id =>
      simp only [BindWorld.step]
      split
      · exact h
      · exact h

end Stands

/-- **The daemon is found at its path**, in every run in which no name is removed late: no launch, crash
or exit of another takes it away. -/
theorem daemon_stands (library : ListenerOptions) (endpoint : {e : SocketPath // e.Wf})
    (inputs : List BindInput)
    (horder : ∀ n input, inputs[n]? = some input →
      (Run.after step (start library endpoint) inputs n).Orderly input)
    (n : ℕ) : (Run.after step (start library endpoint) inputs n).Stands := by
  have hboth : (Run.after step (start library endpoint) inputs n).Inv ∧
      (Run.after step (start library endpoint) inputs n).Stands := by
    refine Run.invariant (P := fun w : BindWorld => w.Inv ∧ w.Stands)
      ⟨Inv.start library endpoint, nofun⟩ ?_ n
    -- both together, one step at a time
    have hrun : ∀ n, (Run.after step (start library endpoint) inputs n).Inv :=
      inv_after library endpoint inputs
    exact fun n input hinput h => ⟨h.1.step input, h.2.step (hrun n) (horder n input hinput)⟩
  exact hboth.2

/-- A launch that recovers the stale path and exits, and another one. -/
def relaunch : List BindInput :=
  [.launch 0, .flock 0, .bind 0, .metadata 0, .probe 0 false, .remove 0, .rebind 0, .drop 0, .close 0,
    .reclaim 0, .launch 1, .flock 1, .bind 1]

/-- After a stale path is recovered and the daemon exits, another one is found at the path. -/
theorem daemon_stands_relaunch :
    (Run.after step (start .direct SocketPath.stale) relaunch 13).Stands := by
  refine daemon_stands .direct SocketPath.stale relaunch (fun n input hinput p hp _ => ?_) 13
  subst hp
  obtain ⟨hn, hget⟩ := List.getElem?_eq_some_iff.mp hinput
  -- there is one such step, and nobody has the lock then
  have hlen : n < 13 := hn
  interval_cases n
  all_goals first | rfl | cases hget

/-! ## Recovery -/

/-- What one launch does when no other is at work. -/
def attempt (p : ℕ) : List BindInput :=
  [.launch p, .flock p, .bind p, .metadata p, .probe p false, .remove p, .rebind p]

/-- A launch that is alone gets the socket exactly when nobody answers there and nothing else stands
there; otherwise it fails and has touched nothing. -/
def Recovers (w : BindWorld) : Prop :=
  ∀ p, w.lock = none → w.stage p = .idle →
    (w.endpoint.Vacant → ((attempt p).foldl step w).stage p = .listening w.endpoint.made ∧
      ((attempt p).foldl step w).endpoint.answers = true) ∧
    (¬ w.endpoint.Vacant → ((attempt p).foldl step w).stage p = .failed .addrInUse ∧
      ((attempt p).foldl step w).endpoint = w.endpoint ∧ ((attempt p).foldl step w).lock = none)

/-- **A launch alone** gets the socket exactly when nobody answers at the path. -/
theorem recovers (w : BindWorld) : w.Recovers := by
  intro p hlock hidle
  cases hentry : w.endpoint.entry with
  | none =>
      refine ⟨fun _ => ?_, fun hvacant => ?_⟩
      · simp [attempt, step, goTo, create, ListenerOptions.createTokio_eq, hidle, hlock,
          SocketPath.bind, SocketPath.create, hentry, SocketPath.answers]
      · exact absurd (fun x hx => by rw [hentry] at hx; cases hx) hvacant
  | some x =>
      cases x with
      | other =>
          refine ⟨fun hvacant => ?_, fun _ => ?_⟩
          · obtain ⟨id, hid, -⟩ := hvacant .other hentry
            cases hid
          · simp [attempt, step, goTo, create, ListenerOptions.createTokio_eq, hidle, hlock,
              SocketPath.bind, SocketPath.create, hentry, failWith, release]
      | socket id =>
          by_cases hlive : id ∈ w.endpoint.listening
          · refine ⟨fun hvacant => ?_, fun _ => ?_⟩
            · obtain ⟨id', hid, hdead⟩ := hvacant (.socket id) hentry
              cases hid
              exact absurd hlive hdead
            · simp [attempt, step, goTo, create, ListenerOptions.createTokio_eq, hidle, hlock,
                SocketPath.bind, SocketPath.create, hentry, failWith, release, SocketPath.answers, hlive]
          · refine ⟨fun _ => ?_, fun hvacant => ?_⟩
            · simp [attempt, step, goTo, create, ListenerOptions.createTokio_eq, hidle, hlock,
                SocketPath.bind, SocketPath.create, hentry, SocketPath.answers, SocketPath.unlink, hlive]
            · refine absurd (fun y hy => ?_) hvacant
              rw [hentry, Option.mem_some_iff] at hy
              exact ⟨id, hy.symm, hlive⟩

end BindWorld

end Synbad
