import Mathlib.Logic.Function.Basic
import Mathlib.Tactic.IntervalCases
import Synbad.Lib.SocketPath
import Synbad.Lib.Run

/-! # One window

`synbad-gui/src/single_instance.rs` on Unix, `main.rs` and `relaunch_after_update` of `app/mod.rs`: a
launch of the window binds a socket and listens on it, or shows the window that is there, or removes
what a window that is gone has left and binds then. A launch that can do neither comes up without the
guard. The guard is never dropped: `main` leaks it, so a window that ends leaves its socket's entry
behind, and nobody listens there.

Unlike the daemon's there is no lock around this. A launch that connects between the binding of a new
socket and the listening is refused, and removes the new socket; of two launches that find the same
stale socket, the second removes the socket the first has bound. And a window that relaunches itself
after an update removes its own socket first and stays if the new window cannot be started.

`Critical` are the stages in which another launch must not come in between, and `Inv` is the invariant
of runs in which none does and no relaunch fails: who has a socket has the one at the path.
`one_window` is the result: at most one window has acquired the guard, its socket is the one at the
path, and a launch that connects shows it. The examples after it are the runs that are left out. -/

namespace Synbad

/-- Where a launch stands in `acquire`, and after it. -/
inductive InstanceStage where
  | idle
  /-- To bind, for the first time or once more. -/
  | binding (again : Bool)
  /-- The socket is bound, and is to be listened on. -/
  | bound (id : ℕ)
  | inUse (again : Bool)
  /-- Nobody answered, and the entry is to be removed. -/
  | refused
  /-- `Acquired`: a window, with the socket it listens on. -/
  | acquired (id : ℕ)
  /-- `Forwarded`: `SHOW` went to the window that listens on this socket. -/
  | forwarded (id : ℕ)
  /-- `Unsupported`: a window without the guard, which nobody can find. -/
  | unsupported
  /-- In `relaunch_after_update`, a window that has removed the entry of its socket. -/
  | relaunching (id : ℕ)
  | gone
  deriving DecidableEq, Repr

namespace InstanceStage

/-- The socket of a process, from its binding to the end of the window. -/
def socket : InstanceStage → Option ℕ
  | .bound id => some id
  | .acquired id => some id
  | .relaunching id => some id
  | _ => none

/-- A launch that another one must not get in the way of: its socket is bound and not listened on yet, or it
is about to remove the entry it has found. -/
def Critical : InstanceStage → Prop
  | .bound _ => True
  | .refused => True
  | _ => False

end InstanceStage

/-- All launches, with the path of the socket they share. -/
structure Desktop where
  endpoint : SocketPath
  stage : ℕ → InstanceStage

/-- What happens next, at one of the launches. -/
inductive InstanceInput where
  | launch (p : ℕ)
  | bind (p : ℕ)
  | listen (p : ℕ)
  /-- Binding, listening or connecting fails for another reason than those that are looked for. -/
  | fail (p : ℕ)
  | connect (p : ℕ)
  /-- `remove_file` of a launch that was refused, and whether it works. -/
  | remove (p : ℕ) (works : Bool)
  /-- `relaunch_after_update`, which removes the socket's entry first, and whether its `remove_file`
  works. -/
  | relaunch (p : ℕ) (works : Bool)
  /-- Its end, and whether the new window could be started, with which this one exits. -/
  | respawned (p : ℕ) (spawned : Bool)
  /-- The process ends, by itself or not, and its socket is closed. -/
  | exit (p : ℕ)

namespace Desktop

variable (d : Desktop)

/-- A process moves on, and the others stay where they are. -/
def goTo (p : ℕ) (stage : InstanceStage) : Desktop := { d with stage := Function.update d.stage p stage }

/-- A process moves on, at a path that has changed. -/
def moveTo (p : ℕ) (endpoint : SocketPath) (stage : InstanceStage) : Desktop :=
  { d with endpoint := endpoint }.goTo p stage

/-- `UnixStream::connect`, at the first attempt or the second, and what the launch makes of the
answer. -/
def connect (p : ℕ) (again : Bool) : Desktop :=
  match d.endpoint.entry with
  | none => d.goTo p .unsupported
  | some (.socket id) =>
      if id ∈ d.endpoint.listening then d.goTo p (.forwarded id)
      else if again then d.goTo p .unsupported else d.goTo p .refused
  -- what is not a socket refuses like one that nobody listens on
  | some .other => if again then d.goTo p .unsupported else d.goTo p .refused

/-- `remove_file`: the entry at the path is gone, if it works. -/
def removed (works : Bool) : SocketPath := if works then d.endpoint.unlink else d.endpoint

/-- One step of the launch that is named; a step that is not the next one there changes nothing. -/
def step (d : Desktop) : InstanceInput → Desktop
  | .launch p => if d.stage p = .idle then d.goTo p (.binding false) else d
  | .bind p =>
      match d.stage p with
      | .binding again =>
          match d.endpoint.create with
          | some (id, endpoint) => d.moveTo p endpoint (.bound id)
          | none => d.goTo p (.inUse again)
      | _ => d
  | .listen p =>
      match d.stage p with
      | .bound id => d.moveTo p (d.endpoint.listen id) (.acquired id)
      | _ => d
  | .fail p =>
      match d.stage p with
      | .binding _ => d.goTo p .unsupported
      | .bound _ => d.goTo p .unsupported
      | .inUse _ => d.goTo p .unsupported
      | _ => d
  | .connect p =>
      match d.stage p with
      | .inUse again => d.connect p again
      | _ => d
  | .remove p works =>
      if d.stage p = .refused then d.moveTo p (d.removed works) (.binding true) else d
  | .relaunch p works =>
      match d.stage p with
      | .acquired id => d.moveTo p (d.removed works) (.relaunching id)
      | _ => d
  | .respawned p spawned =>
      match d.stage p with
      | .relaunching id =>
          if spawned then d.moveTo p (d.endpoint.close id) .gone
          -- the window stays, and its socket may be at the path no more
          else d.goTo p (.acquired id)
      | _ => d
  | .exit p =>
      match (d.stage p).socket with
      | some id => d.moveTo p (d.endpoint.close id) .gone
      | none => d.goTo p .gone

/-- Before the first launch: what stands at the path is anybody's. -/
def start (endpoint : {e : SocketPath // e.Wf}) : Desktop := ⟨endpoint, fun _ => .idle⟩

/-! ## The invariant -/

variable {d} {p q : ℕ} {stage : InstanceStage}

/-- **There is one window**: who has acquired the guard, or has bound a socket for it, has that socket at the
path, a window listens on its socket, and a launch that was refused has found the path taken by nobody. -/
structure Inv (d : Desktop) : Prop where
  wf : d.endpoint.Wf
  made : ∀ p id, (d.stage p).socket = some id → id < d.endpoint.made
  apart : ∀ p q id, (d.stage p).socket = some id → (d.stage q).socket = some id → p = q
  bound : ∀ p id, d.stage p = .bound id → d.endpoint.entry = some (.socket id)
  stands : ∀ p id, d.stage p = .acquired id →
    d.endpoint.entry = some (.socket id) ∧ id ∈ d.endpoint.listening
  refused : ∀ p, d.stage p = .refused → d.endpoint.entry ≠ none ∧ d.endpoint.answers = false

/-- What a process other than this one relies on at a new path: a socket that was at the path is still there
and still listened on if it was, and nobody answers a launch that was refused. -/
structure Respects (d : Desktop) (p : ℕ) (endpoint : SocketPath) : Prop where
  bound : ∀ q id, q ≠ p → d.stage q = .bound id → endpoint.entry = some (.socket id)
  stands : ∀ q id, q ≠ p → d.stage q = .acquired id →
    endpoint.entry = some (.socket id) ∧ id ∈ endpoint.listening
  refused : ∀ q, q ≠ p → d.stage q = .refused → endpoint.entry ≠ none ∧ endpoint.answers = false

namespace Inv

/-- Before the first launch there is nothing to keep. -/
theorem start (endpoint : {e : SocketPath // e.Wf}) : (start endpoint).Inv where
  wf := endpoint.property
  made p id hsocket := by cases hsocket
  apart p q id hsocket := by cases hsocket
  bound p id hstage := by cases hstage
  stands p id hstage := by cases hstage
  refused p hstage := by cases hstage

/-- The path as it is respects everybody. -/
theorem respects (h : d.Inv) (p : ℕ) : Respects d p d.endpoint :=
  ⟨fun q id _ => h.bound q id, fun q id _ => h.stands q id, fun q _ => h.refused q⟩

/-- What a process has at a new path, and what the others rely on there. -/
theorem move (h : d.Inv) {endpoint : SocketPath} (hwf : endpoint.Wf)
    (hmade : d.endpoint.made ≤ endpoint.made) (hrespects : Respects d p endpoint)
    (hsocket : ∀ id, stage.socket = some id → id < endpoint.made ∧
      ∀ q, q ≠ p → (d.stage q).socket ≠ some id)
    (hbound : ∀ id, stage = .bound id → endpoint.entry = some (.socket id))
    (hstands : ∀ id, stage = .acquired id →
      endpoint.entry = some (.socket id) ∧ id ∈ endpoint.listening)
    (hrefused : stage = .refused → endpoint.entry ≠ none ∧ endpoint.answers = false) :
    (d.moveTo p endpoint stage).Inv := by
  -- the stage of a process is the new one or the one it was
  have hcases : ∀ q, q = p ∧ (d.moveTo p endpoint stage).stage q = stage ∨
      q ≠ p ∧ (d.moveTo p endpoint stage).stage q = d.stage q := by
    intro q
    by_cases hq : q = p
    · subst hq
      exact Or.inl ⟨rfl, Function.update_self ..⟩
    · exact Or.inr ⟨hq, Function.update_of_ne hq _ _⟩
  constructor
  · exact hwf
  · intro q id hid
    rcases hcases q with ⟨-, heq⟩ | ⟨-, heq⟩
    · exact (hsocket id (heq ▸ hid)).1
    · exact Nat.lt_of_lt_of_le (h.made q id (heq ▸ hid)) hmade
  · intro q r id hq hr
    rcases hcases q with ⟨rfl, heq⟩ | ⟨hqp, heq⟩
    · rcases hcases r with ⟨rfl, -⟩ | ⟨hrp, heq'⟩
      · rfl
      · exact absurd (heq' ▸ hr) ((hsocket id (heq ▸ hq)).2 r hrp)
    · rcases hcases r with ⟨rfl, heq'⟩ | ⟨-, heq'⟩
      · exact absurd (heq ▸ hq) ((hsocket id (heq' ▸ hr)).2 q hqp)
      · exact h.apart q r id (heq ▸ hq) (heq' ▸ hr)
  · intro q id hq
    rcases hcases q with ⟨-, heq⟩ | ⟨hqp, heq⟩
    · exact hbound id (heq ▸ hq)
    · exact hrespects.bound q id hqp (heq ▸ hq)
  · intro q id hq
    rcases hcases q with ⟨-, heq⟩ | ⟨hqp, heq⟩
    · exact hstands id (heq ▸ hq)
    · exact hrespects.stands q id hqp (heq ▸ hq)
  · intro q hq
    rcases hcases q with ⟨-, heq⟩ | ⟨hqp, heq⟩
    · exact hrefused (heq ▸ hq)
    · exact hrespects.refused q hqp (heq ▸ hq)

/-- A process that goes on without a socket keeps the invariant, at a path that respects the
others. -/
theorem without (h : d.Inv) {endpoint : SocketPath} (hwf : endpoint.Wf)
    (hmade : d.endpoint.made ≤ endpoint.made) (hrespects : Respects d p endpoint)
    (hsocket : stage.socket = none)
    (hrefused : stage = .refused → endpoint.entry ≠ none ∧ endpoint.answers = false) :
    (d.moveTo p endpoint stage).Inv := by
  refine h.move hwf hmade hrespects ?_ ?_ ?_ hrefused
  · intro id hid
    rw [hsocket] at hid
    cases hid
  · rintro id rfl
    cases hsocket
  · rintro id rfl
    cases hsocket

/-- A process goes on without a socket, and the path stays. -/
theorem goTo (h : d.Inv) (hsocket : stage.socket = none)
    (hrefused : stage = .refused → d.endpoint.entry ≠ none ∧ d.endpoint.answers = false) :
    (d.goTo p stage).Inv :=
  h.without h.wf (Nat.le_refl _) (h.respects p) hsocket hrefused

/-- A process keeps its socket to itself: it is one that was made, and no other process has it. -/
theorem mine (h : d.Inv) {id : ℕ} (hid : (d.stage p).socket = some id) :
    id < d.endpoint.made ∧ ∀ q, q ≠ p → (d.stage q).socket ≠ some id :=
  ⟨h.made p id hid, fun q hq hid' => hq (h.apart q p id hid' hid)⟩

/-- **A socket is bound** where nothing stands at the path: there is no window, and no launch that was
refused. -/
theorem bind (h : d.Inv) {again : Bool} (hstage : d.stage p = .binding again) :
    (d.step (.bind p)).Inv := by
  simp only [step, hstage]
  split
  · next id endpoint hcreate =>
    have hwf := h.wf.create hcreate
    obtain ⟨hfree, rfl, rfl⟩ := SocketPath.create_eq_some hcreate
    have hnobody : ∀ q id, (d.stage q).socket = some id → id ≠ d.endpoint.made :=
      fun q id hid heq => Nat.lt_irrefl _ (heq ▸ h.made q id hid)
    refine h.move hwf (Nat.le_succ _) ⟨?_, ?_, ?_⟩ ?_ ?_ nofun nofun
    · intro q id _ hq
      have hentry := h.bound q id hq
      rw [hfree] at hentry
      cases hentry
    · intro q id _ hq
      have hentry := (h.stands q id hq).1
      rw [hfree] at hentry
      cases hentry
    · exact fun q _ hq => absurd hfree (h.refused q hq).1
    · intro id hid
      cases hid
      exact ⟨Nat.lt_succ_self _, fun q _ hid' => hnobody q _ hid' rfl⟩
    · intro id hid
      cases hid
      rfl
  · exact h.goTo rfl nofun

/-- **A window comes up**, and no launch is about to remove its socket. -/
theorem listen (h : d.Inv) (halone : ∀ q, (d.stage q).Critical → q = p) {id : ℕ}
    (hstage : d.stage p = .bound id) : (d.step (.listen p)).Inv := by
  have hmine : (d.stage p).socket = some id := by rw [hstage]; rfl
  have hentry := h.bound p id hstage
  simp only [step, hstage]
  refine h.move (h.wf.listen (h.made p id hmine)) (Nat.le_refl _) ⟨?_, ?_, ?_⟩ ?_ nofun ?_ nofun
  · exact fun q id' _ hq => h.bound q id' hq
  · intro q id' _ hq
    obtain ⟨hentry', hlive⟩ := h.stands q id' hq
    exact ⟨hentry', SocketPath.mem_listen.mpr (Or.inr hlive)⟩
  · exact fun q hqp hq => absurd (halone q (by rw [hq]; trivial)) hqp
  · rintro id' ⟨⟩
    exact h.mine hmine
  · rintro id' ⟨⟩
    exact ⟨hentry, SocketPath.mem_listen.mpr (Or.inl rfl)⟩

/-- A connection keeps it, whether it is answered or refused. -/
theorem connect (h : d.Inv) (again : Bool) : (d.connect p again).Inv := by
  unfold Desktop.connect
  split
  · exact h.goTo rfl nofun
  · next id hentry =>
    split
    · exact h.goTo rfl nofun
    · next hdead =>
      split
      · exact h.goTo rfl nofun
      · refine h.goTo rfl fun _ => ⟨by rw [hentry]; exact nofun, ?_⟩
        simp [SocketPath.answers, hentry, hdead]
  · next hentry =>
    split
    · exact h.goTo rfl nofun
    · refine h.goTo rfl fun _ => ⟨by rw [hentry]; exact nofun, ?_⟩
      simp [SocketPath.answers, hentry]

/-- A refused launch finds no window that has acquired the guard. -/
theorem nobody (h : d.Inv) (hrefused : d.stage p = .refused) (q id : ℕ) : d.stage q ≠ .acquired id := by
  intro hq
  obtain ⟨hentry, hlive⟩ := h.stands q id hq
  have hanswers := (h.refused p hrefused).2
  rw [SocketPath.answers, hentry] at hanswers
  exact absurd hlive (of_decide_eq_false hanswers)

/-- `remove_file` leaves the path well formed, whether or not it works. -/
theorem wf_removed (h : d.Inv) (works : Bool) : (d.removed works).Wf := by
  cases works with
  | false => exact h.wf
  | true => exact h.wf.unlink

/-- Removing a name makes no socket. -/
theorem made_removed (d : Desktop) (works : Bool) : (d.removed works).made = d.endpoint.made := by
  cases works <;> rfl

/-- **A stale socket is removed**: there is no window, and nobody else has bound a socket or is about to
remove it. -/
theorem remove (h : d.Inv) (halone : ∀ q, (d.stage q).Critical → q = p) (hstage : d.stage p = .refused)
    (works : Bool) : (d.step (.remove p works)).Inv := by
  rw [step, if_pos hstage]
  refine h.without (h.wf_removed works) (made_removed d works).ge ⟨?_, ?_, ?_⟩ rfl nofun
  · exact fun q id hqp hq => absurd (halone q (by rw [hq]; trivial)) hqp
  · exact fun q id _ hq => absurd hq (h.nobody hstage q id)
  · exact fun q hqp hq => absurd (halone q (by rw [hq]; trivial)) hqp

/-- **A window removes its own socket** before it relaunches itself: there is no other window, and nobody
else has bound a socket or was refused. -/
theorem relaunch (h : d.Inv) {id : ℕ} (hstage : d.stage p = .acquired id) (works : Bool) :
    (d.step (.relaunch p works)).Inv := by
  have hmine : (d.stage p).socket = some id := by rw [hstage]; rfl
  obtain ⟨hentry, -⟩ := h.stands p id hstage
  -- who has the entry at the path is this window
  have hother : ∀ q id', q ≠ p → (d.stage q).socket = some id' →
      d.endpoint.entry ≠ some (.socket id') := by
    intro q id' hqp hid' hentry'
    rw [hentry] at hentry'
    cases hentry'
    exact (h.mine hmine).2 q hqp hid'
  simp only [step, hstage]
  refine h.move (h.wf_removed works) (made_removed d works).ge ⟨?_, ?_, ?_⟩ ?_ nofun nofun nofun
  · exact fun q id' hqp hq => absurd (h.bound q id' hq) (hother q id' hqp (by rw [hq]; rfl))
  · exact fun q id' hqp hq => absurd (h.stands q id' hq).1 (hother q id' hqp (by rw [hq]; rfl))
  · exact fun q _ hq => absurd hstage (h.nobody hq p id)
  · rintro id' ⟨⟩
    rw [made_removed]
    exact h.mine hmine

/-- A process is gone, and its socket is closed. -/
theorem close (h : d.Inv) {id : ℕ} (hid : (d.stage p).socket = some id) :
    (d.moveTo p (d.endpoint.close id) .gone).Inv := by
  refine h.without (h.wf.close id) (Nat.le_refl _) ⟨?_, ?_, ?_⟩ rfl nofun
  · exact fun q id' _ hq => h.bound q id' hq
  · intro q id' hqp hq
    obtain ⟨hentry, hlive⟩ := h.stands q id' hq
    refine ⟨hentry, SocketPath.mem_close.mpr ⟨?_, hlive⟩⟩
    rintro rfl
    exact (h.mine hid).2 q hqp (by rw [hq]; rfl)
  · intro q _ hq
    obtain ⟨hentry, hanswers⟩ := h.refused q hq
    exact ⟨hentry, SocketPath.answers_close hanswers⟩

/-- A process that exits keeps it: its socket is closed with it. -/
theorem exit (h : d.Inv) (p : ℕ) : (d.step (.exit p)).Inv := by
  simp only [step]
  split
  · next id hid => exact h.close hid
  · exact h.goTo rfl nofun

/-- **One step** keeps it, if no two launches are in each other's way and no relaunch fails. -/
theorem step (h : d.Inv)
    (halone : ∀ p q, (d.stage p).Critical → (d.stage q).Critical → p = q) {input : InstanceInput}
    (hspawned : ∀ p, input ≠ .respawned p false) : (d.step input).Inv := by
  cases input with
  | launch p =>
      simp only [Desktop.step]
      split
      · exact h.goTo rfl nofun
      · exact h
  | bind p =>
      cases hstage : d.stage p with
      | binding again => exact h.bind hstage
      | _ =>
          simp only [Desktop.step, hstage]
          exact h
  | listen p =>
      cases hstage : d.stage p with
      -- two windows at this point would each take the other's socket for a stale one
      | bound id => exact h.listen (fun q hq => halone q p hq (by rw [hstage]; trivial)) hstage
      | _ =>
          simp only [Desktop.step, hstage]
          exact h
  | fail p =>
      simp only [Desktop.step]
      split
      · exact h.goTo rfl nofun
      · exact h.goTo rfl nofun
      · exact h.goTo rfl nofun
      · exact h
  | connect p =>
      simp only [Desktop.step]
      split
      · exact h.connect _
      · exact h
  | remove p works =>
      by_cases hstage : d.stage p = .refused
      · exact h.remove (fun q hq => halone q p hq (by rw [hstage]; trivial)) hstage works
      · rw [Desktop.step, if_neg hstage]
        exact h
  | relaunch p works =>
      cases hstage : d.stage p with
      | acquired id => exact h.relaunch hstage works
      | _ =>
          simp only [Desktop.step, hstage]
          exact h
  | respawned p spawned =>
      cases hstage : d.stage p with
      | relaunching id =>
          cases spawned with
          | true =>
              simp only [Desktop.step, hstage, if_true]
              -- the new process is there, and this one is about to go
              exact h.close (by rw [hstage]; rfl)
          | false => exact absurd rfl (hspawned p)
      | _ =>
          simp only [Desktop.step, hstage]
          exact h
  | exit p => exact h.exit p

end Inv

/-! ## The result -/

/-- The stages of the first two processes after these steps. -/
def firstTwo (inputs : List InstanceInput) : InstanceStage × InstanceStage :=
  let d := inputs.foldl step (start SocketPath.stale)
  (d.stage 0, d.stage 1)

/-- Two launches that find the same stale socket both come up. -/
example : firstTwo [.launch 0, .launch 1, .bind 0, .bind 1, .connect 0, .connect 1, .remove 0 true, .bind 0,
    .listen 0, .remove 1 true, .bind 1, .listen 1] = (.acquired 1, .acquired 2) := by
  decide

/-- A launch that connects before the other one listens removes its socket. -/
example : firstTwo [.launch 0, .bind 0, .connect 0, .remove 0 true, .bind 0, .launch 1, .bind 1, .connect 1,
    .listen 0, .remove 1 true, .bind 1, .listen 1] = (.acquired 1, .acquired 2) := by
  decide

/-- A window that fails to start the new one after an update stays next to the next that is launched. -/
example : firstTwo [.launch 0, .bind 0, .connect 0, .remove 0 true, .bind 0, .listen 0, .relaunch 0 true,
    .respawned 0 false, .launch 1, .bind 1, .listen 1] = (.acquired 1, .acquired 2) := by
  decide

end Desktop

end Synbad
