import Mathlib.Data.Finset.Basic

/-! # A path at which sockets are bound

A path of the file system with the sockets bound there: what stands at the path, and which of the
sockets that were ever bound still listen. A socket that is closed leaves its entry behind, and an
entry that is removed leaves its socket listening; both are told apart by connecting.

Binding a socket (`create`) and listening on it (`listen`) are two operations, and a connection that
comes in between is refused as if the entry were stale. Where nothing can come in between, because a
lock is held, they are taken as one (`bind`). The lemmas say of each operation what it leaves at the
path and which sockets listen afterwards; `Wf` is what ties the numbers together, so that a socket
that is new is new. A daemon's socket and the socket by which a window is found again are two users of
this. -/

/-- What stands at a path: the entry of a socket, by its number, or anything else. -/
inductive PathEntry where
  | socket (id : ℕ)
  | other
  deriving DecidableEq, Repr

/-- A path with its entry, the sockets bound there that still listen, and a count of those that were
made. -/
structure SocketPath where
  entry : Option PathEntry
  listening : Finset ℕ
  /-- How many sockets have been bound at the path; a new one takes this number. -/
  made : ℕ

namespace SocketPath

variable (e : SocketPath) {id : ℕ}

/-- Bind a new socket, if nothing stands at the path: `bind(2)`. Nobody listens on it yet. -/
def create : Option (ℕ × SocketPath) :=
  match e.entry with
  | none => some (e.made, ⟨some (.socket e.made), e.listening, e.made + 1⟩)
  | some _ => none

/-- Listen on a socket: `listen(2)`. From now on a connection to its entry is answered. -/
def listen (id : ℕ) : SocketPath := { e with listening := insert id e.listening }

/-- Bind a new socket and listen on it, as `UnixListener::bind` does. -/
def bind : Option (ℕ × SocketPath) := e.create.map fun (id, e) => (id, e.listen id)

/-- Somebody answers at the path: what stands there is the entry of a socket that listens. -/
def answers : Bool :=
  match e.entry with
  | some (.socket id) => id ∈ e.listening
  | _ => false

/-- The path is free, or what stands there is a socket that nobody listens on. -/
def Vacant : Prop := ∀ x ∈ e.entry, ∃ id, x = .socket id ∧ id ∉ e.listening

/-- Remove what stands at the path, if anything does. The socket behind it goes on listening. -/
def unlink : SocketPath := { e with entry := none }

/-- A socket is closed: it no longer listens, and its entry stays behind. -/
def close (id : ℕ) : SocketPath := { e with listening := e.listening.erase id }

/-- Every number that occurs, among the sockets that listen and in the entry, is one of a socket that
was made. -/
structure Wf (e : SocketPath) : Prop where
  listening : ∀ id ∈ e.listening, id < e.made
  entry : ∀ id, e.entry = some (.socket id) → id < e.made

variable {e} {e' : SocketPath}

/-- A socket is created only at a free path, with a number of its own, and does not listen yet. -/
theorem create_eq_some (h : e.create = some (id, e')) :
    e.entry = none ∧ id = e.made ∧ e' = ⟨some (.socket e.made), e.listening, e.made + 1⟩ := by
  unfold create at h
  split at h
  · next hentry =>
    cases h
    exact ⟨hentry, rfl, rfl⟩
  · cases h

/-- A socket that is bound in one step listens from then on. -/
theorem bind_eq_some (h : e.bind = some (id, e')) :
    e.entry = none ∧ id = e.made ∧
      e' = ⟨some (.socket e.made), insert e.made e.listening, e.made + 1⟩ := by
  obtain ⟨⟨id', e₁⟩, hcreate, heq⟩ := Option.map_eq_some_iff.mp h
  obtain ⟨hentry, rfl, rfl⟩ := create_eq_some hcreate
  cases heq
  exact ⟨hentry, rfl, rfl⟩

@[simp] theorem listen_entry : (e.listen id).entry = e.entry := rfl
@[simp] theorem listen_made : (e.listen id).made = e.made := rfl

@[simp] theorem mem_listen {id' : ℕ} : id' ∈ (e.listen id).listening ↔ id' = id ∨ id' ∈ e.listening :=
  Finset.mem_insert

@[simp] theorem unlink_entry : e.unlink.entry = none := rfl
@[simp] theorem unlink_listening : e.unlink.listening = e.listening := rfl
@[simp] theorem unlink_made : e.unlink.made = e.made := rfl
@[simp] theorem close_entry : (e.close id).entry = e.entry := rfl
@[simp] theorem close_made : (e.close id).made = e.made := rfl

/-- Closing a socket leaves the others listening. -/
theorem mem_close {id' : ℕ} : id' ∈ (e.close id).listening ↔ id' ≠ id ∧ id' ∈ e.listening :=
  Finset.mem_erase

/-- A path where nobody answers is none after a socket is closed. -/
theorem answers_close (h : e.answers = false) : (e.close id).answers = false := by
  unfold answers at h ⊢
  rw [close_entry]
  split
  · next id' hentry =>
    rw [hentry] at h
    rw [decide_eq_false_iff_not] at h ⊢
    exact fun hmem => h (mem_close.mp hmem).2
  · rfl

namespace Wf

/-- A path stays well formed when a socket is created there. -/
theorem create (h : e.Wf) (hcreate : e.create = some (id, e')) : e'.Wf := by
  obtain ⟨-, -, rfl⟩ := create_eq_some hcreate
  constructor
  · exact fun id' hid' => Nat.lt_succ_of_lt (h.listening id' hid')
  · intro id' hid'
    cases hid'
    exact Nat.lt_succ_self _

/-- A path stays well formed when a socket that has been made listens. -/
theorem listen (h : e.Wf) (hid : id < e.made) : (e.listen id).Wf where
  listening id' hid' := by
    rcases mem_listen.mp hid' with rfl | hid'
    · exact hid
    · exact h.listening id' hid'
  entry := h.entry

/-- A path stays well formed when a socket is bound there. -/
theorem bind (h : e.Wf) (hbind : e.bind = some (id, e')) : e'.Wf := by
  obtain ⟨⟨id', e₁⟩, hcreate, heq⟩ := Option.map_eq_some_iff.mp hbind
  have hwf := h.create hcreate
  obtain ⟨-, rfl, rfl⟩ := create_eq_some hcreate
  cases heq
  exact hwf.listen (Nat.lt_succ_self _)

/-- A path stays well formed when its name is removed. -/
theorem unlink (h : e.Wf) : e.unlink.Wf where
  listening := h.listening
  entry id' hid' := by cases hid'

/-- A path stays well formed when a socket is closed. -/
theorem close (h : e.Wf) (id : ℕ) : (e.close id).Wf where
  listening id' hid' := h.listening id' (mem_close.mp hid').2
  entry := h.entry

end Wf

/-- A path that a process that crashed has left behind. -/
def stale : {e : SocketPath // e.Wf} :=
  ⟨⟨some (.socket 0), ∅, 1⟩, ⟨nofun, fun id hid => by cases hid; exact Nat.zero_lt_one⟩⟩

end SocketPath
