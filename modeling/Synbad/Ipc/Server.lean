import Synbad.Lib.Bytes
import Synbad.Lib.Run

/-! # One IPC connection

`handle_connection` of `server.rs`: a task that reads request lines, has the daemon answer them one at
a time, and once the client has subscribed writes the daemon's events in between. The events come
through a broadcast channel: a receiver is a position in everything ever broadcast, and one that is
further behind than the channel holds is told that it lagged. The task waits in a `select!` for a line
or an event; whichever it takes, the bytes read so far stay in its buffer.

`Served` adds to a connection a record of what it was sent, the lines it took up and what was
answered. `Goes` has a case for everything a step can do, so that each invariant is a walk through
these cases and not through the step. There are three: responses answer the lines in their order, one
for each (`InOrder`); no event comes before a `Subscribe` has been answered (`AckFirst`); and the
events written, being written and still to be received are those since the first `Subscribe`
(`Complete`).

The third fails when a second `Subscribe` puts a new receiver in the place of one with unread events
(`Complete.replaced_iff`). `served_in_order` states all three for every run, with that as the exact
condition; and delivery goes on (`Complete.drain`), so that nothing is only pending forever. -/

namespace Synbad

namespace Ipc

/-- `Message`: a request, a response or an event, over the types of the three. -/
inductive Message (Req Resp Ev : Type) where
  | request (req : Req)
  | response (resp : Resp)
  | event (ev : Ev)

/-- `MAX_MESSAGE_BYTES`: one MiB, the most a line may have. -/
def maxMessageBytes : ℕ := 1024 * 1024

/-- What the server uses of the messages and of the channel. -/
structure ServerDeps (Req Resp Ev : Type) where
  /-- `json::from_slice`: the message of a line, or why it is none. -/
  fromSlice : Bytes → Except String (Message Req Resp Ev)
  /-- `json::to_vec`: the line of a message, without a newline. -/
  toVec : Message Req Resp Ev → Except String Bytes
  /-- The `{:?}` form of what was read, which an error shows. -/
  debug : Except String (Message Req Resp Ev) → String
  isSubscribe : Req → Bool
  /-- `Response::Error`, with this text. -/
  error : String → Resp
  /-- How many events the channel holds for a receiver that is behind. -/
  capacity : ℕ

variable {Req Resp Ev : Type}

/-! ## Reading and writing -/

/-- What one chunk makes of a message that is being read. -/
inductive ReadOutcome where
  | pending
  | tooLarge
  | more (buffer unread : Bytes)
  | line (line unread : Bytes)

/-- The newline, which ends a message. -/
def newline : UInt8 := 10

/-- One round of `read_message`, for which the next `n` bytes are there to be had. -/
def readMessage (buffer unread : Bytes) (n : ℕ) : ReadOutcome :=
  let bytes := unread.take n
  if bytes.isEmpty then .pending
  else
    let ended := bytes.findIdx? (· == newline)
    let taken := (ended.map (· + 1)).getD bytes.length
    if maxMessageBytes < buffer.length + taken then .tooLarge
    else if ended.isSome then .line (buffer ++ bytes.take taken) (unread.drop taken)
    else .more (buffer ++ bytes.take taken) (unread.drop taken)

/-- `send_message` gets as far as writing: the message has a form, and one that is not too large. -/
def ServerDeps.fits (deps : ServerDeps Req Resp Ev) (m : Message Req Resp Ev) : Bool :=
  match deps.toVec m with
  | .error _ => false
  | .ok bytes => bytes.length + 1 ≤ maxMessageBytes

/-- The request on a line, if it is one. -/
def ServerDeps.request? (deps : ServerDeps Req Resp Ev) (line : Bytes) : Option Req :=
  match deps.fromSlice line with
  | .ok (.request req) => some req
  | _ => none

/-- The answer to a line that is no request. -/
def ServerDeps.rejection (deps : ServerDeps Req Resp Ev) (line : Bytes) : Resp :=
  deps.error ("expected valid request: " ++ deps.debug (deps.fromSlice line))

/-! ## The task -/

/-- Where `handle_connection` is, between two of its awaits. -/
inductive Stage (Req Resp Ev : Type) where
  /-- In the `select!`, waiting for a line or an event. -/
  | reading
  /-- The request of this line is with the daemon; `pending` is the receiver made for a `Subscribe`. -/
  | awaiting (line : Bytes) (pending : Option ℕ)
  /-- A message is being written; the pending receiver is installed after it. -/
  | sending (message : Message Req Resp Ev) (pending : Option ℕ)
  | closed

/-- The connection with the channel behind it, as far as the task sees them. -/
structure Connection (Req Resp Ev : Type) where
  /-- Everything broadcast so far, oldest first. -/
  bus : List Ev
  /-- What has arrived and is not read yet. -/
  unread : Bytes
  buffer : Bytes
  /-- The position of the receiver in everything broadcast, if there is a receiver. -/
  subscription : Option ℕ
  stage : Stage Req Resp Ev
  written : List (Message Req Resp Ev)

/-- What can happen next, at the client, at the daemon or in the task. -/
inductive Move (Resp Ev : Type) where
  /-- The daemon broadcasts an event to all receivers. -/
  | broadcast (ev : Ev)
  /-- The client sends some bytes, a part of a line or several. -/
  | arrive (bytes : Bytes)
  /-- The reader gets up to this many of the bytes that have arrived. -/
  | fill (n : ℕ)
  /-- The `select!` looks at the receiver, if there is one. -/
  | recv
  /-- The daemon answers the request that the task has handed to it. -/
  | reply (resp : Resp)
  /-- The message that is being written is written and flushed. -/
  | flushed
  /-- A timeout, an error, or the end of the input. -/
  | fail

namespace Connection

/-- A line has been read: a request goes to the daemon, a `Subscribe` after its receiver is made. -/
def handleLine (deps : ServerDeps Req Resp Ev) (c : Connection Req Resp Ev) (line : Bytes) :
    Connection Req Resp Ev :=
  match deps.request? line with
  | some req =>
      { c with
        stage := .awaiting line (if deps.isSubscribe req then some c.bus.length else none) }
  | none => { c with stage := .sending (.response (deps.rejection line)) none }

/-- The connection is given up, and nothing more is written. -/
def close (c : Connection Req Resp Ev) : Connection Req Resp Ev := { c with stage := .closed }

/-- `sub.recv()`, in the `select!`: the next event, if there is one, or the end of a connection that
lagged. -/
def recv (deps : ServerDeps Req Resp Ev) (c : Connection Req Resp Ev) : Connection Req Resp Ev :=
  match c.stage, c.subscription with
  | .reading, some next =>
      -- lagged
      if deps.capacity < c.bus.length - next then c.close
      else
        match c.bus[next]? with
        | none => c
        | some ev => { c with subscription := some (next + 1), stage := .sending (.event ev) none }
  | _, _ => c

/-- One step of the connection; a move that is not the task's next one changes nothing. -/
def step (deps : ServerDeps Req Resp Ev) (c : Connection Req Resp Ev) :
    Move Resp Ev → Connection Req Resp Ev
  | .broadcast ev => { c with bus := c.bus ++ [ev] }
  | .arrive bytes => { c with unread := c.unread ++ bytes }
  | .fill n =>
      match c.stage with
      | .reading =>
          match readMessage c.buffer c.unread n with
          | .pending => c
          | .tooLarge => c.close
          | .more buffer unread => { c with buffer := buffer, unread := unread }
          | .line line unread => { c with buffer := [], unread := unread }.handleLine deps line
      | _ => c
  | .recv => c.recv deps
  | .reply resp =>
      match c.stage with
      | .awaiting _ pending => { c with stage := .sending (.response resp) pending }
      | _ => c
  | .flushed =>
      match c.stage with
      | .sending message pending =>
          if deps.fits message then
            { c with
              written := c.written ++ [message], stage := .reading
              subscription := if pending.isSome then pending else c.subscription }
          else c.close
      | _ => c
  | .fail => c.close

end Connection

/-! ## What is seen of it -/

/-- A connection with a record of what it was sent, the lines it took up, the answer decided on for
each, and how many events had been broadcast when the first `Subscribe` was taken up. -/
structure Served (Req Resp Ev : Type) where
  conn : Connection Req Resp Ev
  sent : Bytes
  lines : List Bytes
  answers : List (Bytes × Resp)
  since : Option ℕ

namespace Served

variable (deps : ServerDeps Req Resp Ev) (s : Served Req Resp Ev)

/-- A connection that has just been accepted, with the events broadcast before it. -/
def accepted (bus : List Ev) : Served Req Resp Ev :=
  ⟨⟨bus, [], [], none, .reading, []⟩, [], [], [], none⟩

/-- The line a move completes, if it does. -/
def newLine (move : Move Resp Ev) : Option Bytes :=
  match move, s.conn.stage with
  | .fill n, .reading =>
      match readMessage s.conn.buffer s.conn.unread n with
      | .line line _ => some line
      | _ => none
  | _, _ => none

/-- The answer a move decides on, with the line it is for. -/
def newAnswer (move : Move Resp Ev) : Option (Bytes × Resp) :=
  match move, s.conn.stage with
  | .reply resp, .awaiting line _ => some (line, resp)
  | move, _ =>
      (s.newLine move).bind fun line =>
        if (deps.request? line).isSome then none else some (line, deps.rejection line)

/-- The line is a request to subscribe. -/
def isSubscribe (line : Bytes) : Bool := (deps.request? line).any deps.isSubscribe

/-- One step, with what it adds to the record. -/
def step (move : Move Resp Ev) : Served Req Resp Ev where
  conn := s.conn.step deps move
  sent :=
    match move with
    | .arrive bytes => s.sent ++ bytes
    | _ => s.sent
  lines := s.lines ++ (s.newLine move).toList
  answers := s.answers ++ (s.newAnswer deps move).toList
  since :=
    if s.since.isNone && (s.newLine move).any (isSubscribe deps) then some s.conn.bus.length
    else s.since

end Served

/-- The responses among some messages, in their order. -/
def responses (ms : List (Message Req Resp Ev)) : List Resp :=
  ms.filterMap fun
    | .response resp => some resp
    | _ => none

/-- The events among some messages, in their order. -/
def events (ms : List (Message Req Resp Ev)) : List Ev :=
  ms.filterMap fun
    | .event ev => some ev
    | _ => none

namespace Stage

/-- The message that is being written, if one is. -/
def message : Stage Req Resp Ev → List (Message Req Resp Ev)
  | .sending message _ => [message]
  | _ => []

/-- The line that the daemon has not answered yet, if there is one. -/
def asked : Stage Req Resp Ev → List Bytes
  | .awaiting line _ => [line]
  | _ => []

/-- The receiver that waits to be installed, behind the answer to its `Subscribe`. -/
def pending : Stage Req Resp Ev → Option ℕ
  | .awaiting _ pending => pending
  | .sending _ pending => pending
  | _ => none

/-- The connection is open, at whichever stage. -/
def IsOpen : Stage Req Resp Ev → Prop
  | .closed => False
  | _ => True

end Stage

namespace Served

variable (deps : ServerDeps Req Resp Ev) (s : Served Req Resp Ev)

/-- **Responses in order, one for each line.** The lines taken up are those the client sent, and the
responses written, with the one being written, answer them in order; only the last may still be with
the daemon. A line that is no request is answered with what is wrong with it. -/
structure InOrder : Prop where
  stream : s.lines.flatten ++ s.conn.buffer ++ s.conn.unread = s.sent
  ended : ∀ line ∈ s.lines, ∃ l, line = l ++ [newline] ∧ newline ∉ l
  unended : newline ∉ s.conn.buffer
  answered : s.conn.stage.IsOpen → s.answers.map Prod.fst ++ s.conn.stage.asked = s.lines
  responses : s.conn.stage.IsOpen →
    responses (s.conn.written ++ s.conn.stage.message) = s.answers.map Prod.snd
  rejected : ∀ line resp, (line, resp) ∈ s.answers → deps.request? line = none →
    resp = deps.rejection line

/-- **No event comes first**: before one is written, a `Subscribe` has been answered. -/
def AckFirst : Prop :=
  ∀ before ev after, s.conn.written = before ++ .event ev :: after →
    ∃ i line, s.lines[i]? = some line ∧ isSubscribe deps line = true ∧
      i < (Ipc.responses before).length

/-- Where the next event comes from: the receiver in use, or else the one about to be. -/
def position : Option ℕ := if s.conn.subscription.isSome then s.conn.subscription else s.conn.stage.pending

/-- **No event is missed.** The events written, then the one being written, then those still to be
received, are the events since the first `Subscribe` was taken up. -/
def Complete : Prop :=
  s.conn.stage.IsOpen → ∀ k, s.since = some k →
    ∃ p, s.position = some p ∧
      events (s.conn.written ++ s.conn.stage.message) ++ s.conn.bus.drop p = s.conn.bus.drop k

/-- A further `Subscribe` is acknowledged only if no event was unread when it was taken up: the
receiver it puts in the place of the old one stands where the old one stands. -/
def KeepsUnread : Move Resp Ev → Prop
  | .flushed => ∀ message old new, s.conn.stage = .sending message (some new) →
      s.conn.subscription = some old → deps.fits message = true → old = new
  | _ => True

/-! ## What a step can do -/

/-- Everything a step can do, each with the move it is for and what it leaves. -/
inductive Goes (deps : ServerDeps Req Resp Ev) (s s' : Served Req Resp Ev) : Move Resp Ev → Prop where
  /-- The move does not apply, or there is nothing to have. -/
  | idle {move : Move Resp Ev}
      (hmove : ∀ message pending, s.conn.stage = .sending message pending → move ≠ .flushed)
      (h : s' = s) : Goes deps s s' move
  /-- A message is not written when it does not fit. -/
  | closed {move : Move Resp Ev}
      (hmove : ∀ message pending, s.conn.stage = .sending message pending → move = .flushed →
        deps.fits message = false)
      (h : s' = { s with conn := s.conn.close }) : Goes deps s s' move
  | broadcast {ev : Ev} (h : s' = { s with conn := { s.conn with bus := s.conn.bus ++ [ev] } }) :
      Goes deps s s' (.broadcast ev)
  | arrive {bytes : Bytes}
      (h : s' = { s with
        conn := { s.conn with unread := s.conn.unread ++ bytes }, sent := s.sent ++ bytes }) :
      Goes deps s s' (.arrive bytes)
  /-- A part of a line is read into the buffer, up to no newline. -/
  | more {n : ℕ} {chunk unread : Bytes} (hunread : s.conn.unread = chunk ++ unread)
      (hchunk : newline ∉ chunk)
      (h : s' = { s with
        conn := { s.conn with buffer := s.conn.buffer ++ chunk, unread := unread } }) :
      Goes deps s s' (.fill n)
  /-- A line is read that is no request, and answered with an error. -/
  | malformed {n : ℕ} {chunk unread line : Bytes} (hstage : s.conn.stage = .reading)
      (hunread : s.conn.unread = chunk ++ newline :: unread) (hchunk : newline ∉ chunk)
      (hline : line = s.conn.buffer ++ chunk ++ [newline]) (hrequest : deps.request? line = none)
      (h : s' = { s with
        conn := { s.conn with
          buffer := [], unread := unread, stage := .sending (.response (deps.rejection line)) none }
        lines := s.lines ++ [line], answers := s.answers ++ [(line, deps.rejection line)] }) :
      Goes deps s s' (.fill n)
  /-- A line is read and goes to the daemon. -/
  | taken {n : ℕ} {chunk unread line : Bytes} {req : Req} (hstage : s.conn.stage = .reading)
      (hunread : s.conn.unread = chunk ++ newline :: unread) (hchunk : newline ∉ chunk)
      (hline : line = s.conn.buffer ++ chunk ++ [newline])
      (hrequest : deps.request? line = some req)
      (h : s' = { s with
        conn := { s.conn with
          buffer := [], unread := unread
          stage := .awaiting line (if deps.isSubscribe req then some s.conn.bus.length else none) }
        lines := s.lines ++ [line]
        since := if s.since.isNone && deps.isSubscribe req then some s.conn.bus.length
          else s.since }) :
      Goes deps s s' (.fill n)
  | received {next : ℕ} {ev : Ev} (hstage : s.conn.stage = .reading)
      (hsubscription : s.conn.subscription = some next) (hev : s.conn.bus[next]? = some ev)
      (h : s' = { s with
        conn := { s.conn with
          subscription := some (next + 1), stage := .sending (.event ev) none } }) :
      Goes deps s s' .recv
  | replied {resp : Resp} {line : Bytes} {pending : Option ℕ}
      (hstage : s.conn.stage = .awaiting line pending)
      (h : s' = { s with
        conn := { s.conn with stage := .sending (.response resp) pending }
        answers := s.answers ++ [(line, resp)] }) :
      Goes deps s s' (.reply resp)
  | flushed {message : Message Req Resp Ev} {pending : Option ℕ}
      (hstage : s.conn.stage = .sending message pending) (hfits : deps.fits message = true)
      (h : s' = { s with
        conn := { s.conn with
          written := s.conn.written ++ [message], stage := .reading
          subscription := if pending.isSome then pending else s.conn.subscription } }) :
      Goes deps s s' .flushed

end Served

/-- What a round of `read_message` takes off the stream. -/
theorem readMessage_spec (buffer unread : Bytes) (n : ℕ) :
    (∃ chunk rest, readMessage buffer unread n = .more (buffer ++ chunk) rest ∧
        unread = chunk ++ rest ∧ newline ∉ chunk) ∨
      (∃ chunk rest, readMessage buffer unread n = .line (buffer ++ chunk ++ [newline]) rest ∧
        unread = chunk ++ newline :: rest ∧ newline ∉ chunk) ∨
      readMessage buffer unread n = .pending ∨ readMessage buffer unread n = .tooLarge := by
  unfold readMessage
  simp only
  split
  · exact Or.inr (Or.inr (Or.inl rfl))
  split
  · exact Or.inr (Or.inr (Or.inr rfl))
  cases hended : (unread.take n).findIdx? (· == newline) with
  | none =>
      -- the whole window is taken, or all there is
      left
      have hnone : newline ∉ unread.take n := by
        intro hmem
        have h := List.findIdx?_eq_none_iff.mp hended newline hmem
        simp at h
      refine ⟨unread.take n, unread.drop (unread.take n).length, ?_, ?_, hnone⟩
      · simp
      · conv_lhs => rw [← List.take_append_drop n unread]
        congr 1
        rw [List.length_take]
        by_cases hn : n ≤ unread.length
        · rw [Nat.min_eq_left hn]
        · rw [Nat.min_eq_right (by omega), List.drop_length, List.drop_of_length_le (by omega)]
  | some i =>
      -- the line ends inside the window, at the first newline of the whole stream
      right
      left
      obtain ⟨hi, hat, hbefore⟩ := List.findIdx?_eq_some_iff_getElem.mp hended
      have hiunread : i < unread.length := by
        rw [List.length_take] at hi
        omega
      have hget : unread[i] = newline := by
        have h := eq_of_beq hat
        rwa [List.getElem_take] at h
      have htake : (unread.take n).take (i + 1) = unread.take i ++ [newline] := by
        rw [List.take_take, Nat.min_eq_left (by rw [List.length_take] at hi; omega),
          List.take_add_one, List.getElem?_eq_getElem hiunread, hget, Option.toList_some]
      refine ⟨unread.take i, unread.drop (i + 1), ?_, ?_, ?_⟩
      · simp only [Option.map_some, Option.getD_some, Option.isSome_some, if_true]
        rw [htake, List.append_assoc]
      · rw [← hget, ← List.drop_eq_getElem_cons hiunread, List.take_append_drop]
      · intro hmem
        obtain ⟨j, hj, hnewline⟩ := List.getElem_of_mem hmem
        rw [List.length_take] at hj
        rw [List.getElem_take] at hnewline
        have h := hbefore j (by omega)
        rw [List.getElem_take, hnewline] at h
        simp at h

namespace Served

variable {deps : ServerDeps Req Resp Ev} {s s' : Served Req Resp Ev} {move : Move Resp Ev}

/-- A move that is not about a line leaves the record as it is. -/
theorem record_eq (hline : s.newLine move = none) (hanswer : s.newAnswer deps move = none)
    (hsent : ∀ bytes, move ≠ .arrive bytes) :
    s.step deps move = { s with conn := s.conn.step deps move } := by
  cases move with
  | arrive bytes => exact absurd rfl (hsent bytes)
  | _ => simp [step, hline, hanswer]

/-- A read comes to one of the moves. -/
theorem fill_goes (s : Served Req Resp Ev) (n : ℕ) : Goes deps s (s.step deps (.fill n)) (.fill n) := by
  cases hstage : s.conn.stage with
  | reading =>
      obtain ⟨chunk, rest, hread, hunread, hchunk⟩ | ⟨chunk, rest, hread, hunread, hchunk⟩ |
        hread | hread := readMessage_spec s.conn.buffer s.conn.unread n
      · refine .more hunread hchunk ?_
        rw [record_eq (by simp [newLine, hstage, hread]) (by simp [newAnswer, newLine, hstage, hread])
          (by simp)]
        simp [Connection.step, hstage, hread]
      · cases hrequest : deps.request? (s.conn.buffer ++ chunk ++ [newline]) with
        | none =>
            refine .malformed hstage hunread hchunk rfl hrequest ?_
            simp [step, newLine, newAnswer, isSubscribe, Connection.step, Connection.handleLine,
              hstage, hread, hrequest, -List.append_assoc]
        | some req =>
            refine .taken hstage hunread hchunk rfl hrequest ?_
            simp [step, newLine, newAnswer, isSubscribe, Connection.step, Connection.handleLine,
              hstage, hread, hrequest, -List.append_assoc]
      · refine .idle (fun _ _ _ => by simp) ?_
        rw [record_eq (by simp [newLine, hstage, hread]) (by simp [newAnswer, newLine, hstage, hread])
          (by simp)]
        simp [Connection.step, hstage, hread]
      · refine .closed (fun _ _ _ => by simp) ?_
        rw [record_eq (by simp [newLine, hstage, hread]) (by simp [newAnswer, newLine, hstage, hread])
          (by simp)]
        simp [Connection.step, hstage, hread]
  | _ =>
      refine .idle (fun _ _ _ => by simp) ?_
      rw [record_eq (by simp [newLine, hstage]) (by simp [newAnswer, newLine, hstage]) (by simp)]
      simp [Connection.step, hstage]

/-- Taking from the broadcast comes to one of the moves. -/
theorem recv_goes (s : Served Req Resp Ev) : Goes deps s (s.step deps .recv) .recv := by
  have hrecord : s.step deps .recv = { s with conn := s.conn.recv deps } :=
    record_eq (by simp [newLine]) (by simp [newAnswer, newLine]) (by simp)
  cases hstage : s.conn.stage with
  | reading =>
      cases hsubscription : s.conn.subscription with
      | none =>
          exact .idle (fun _ _ _ => by simp)
            (by rw [hrecord]; simp [Connection.recv, hstage, hsubscription])
      | some next =>
          by_cases hlag : deps.capacity < s.conn.bus.length - next
          · exact .closed (fun _ _ _ => by simp)
              (by rw [hrecord]; simp [Connection.recv, hstage, hsubscription, hlag])
          cases hev : s.conn.bus[next]? with
          | none =>
              exact .idle (fun _ _ _ => by simp)
                (by rw [hrecord]; simp [Connection.recv, hstage, hsubscription, hlag, hev])
          | some ev =>
              exact .received hstage hsubscription hev
                (by rw [hrecord]; simp [Connection.recv, hstage, hsubscription, hlag, hev])
  | _ => exact .idle (fun _ _ _ => by simp) (by rw [hrecord]; simp [Connection.recv, hstage])

/-- **Every step** is one of these, whatever the stage. -/
theorem step_goes (s : Served Req Resp Ev) (move : Move Resp Ev) :
    Goes deps s (s.step deps move) move := by
  cases move with
  | broadcast ev =>
      exact .broadcast (record_eq (by simp [newLine]) (by simp [newAnswer, newLine]) (by simp))
  | arrive bytes => exact .arrive (by simp [step, newLine, newAnswer, Connection.step])
  | fill n => exact fill_goes s n
  | recv => exact recv_goes s
  | fail =>
      exact .closed (fun _ _ _ => by simp)
        (record_eq (by simp [newLine]) (by simp [newAnswer, newLine]) (by simp))
  | reply resp =>
      -- an answer that nobody waits for changes nothing
      cases hstage : s.conn.stage with
      | awaiting line pending =>
          exact .replied hstage (by simp [step, newLine, newAnswer, Connection.step, hstage])
      | _ =>
          exact .idle (fun _ _ _ => by simp)
            (by simp [step, newLine, newAnswer, Connection.step, hstage])
  | flushed =>
      have hrecord : s.step deps .flushed = { s with conn := s.conn.step deps .flushed } :=
        record_eq (by simp [newLine]) (by simp [newAnswer, newLine]) (by simp)
      cases hstage : s.conn.stage with
      | sending message pending =>
          by_cases hfits : deps.fits message = true
          · exact .flushed hstage hfits (by rw [hrecord]; simp [Connection.step, hstage, hfits])
          -- a message that does not fit ends the connection
          · refine .closed (fun m _ hm _ => ?_) (by rw [hrecord]; simp [Connection.step, hstage, hfits])
            rw [hstage] at hm
            cases hm
            exact Bool.eq_false_iff.mpr hfits
      | _ =>
          refine .idle (fun _ _ hm => ?_) (by rw [hrecord]; simp [Connection.step, hstage])
          rw [hstage] at hm
          cases hm

/-! ## Requests and receivers -/

/-- What holds of the request being handled and of the receivers: a pending receiver belongs to a
`Subscribe` that was the last line, one in use to a `Subscribe` that has been acknowledged, and none
is ahead of the channel. Before the first `Subscribe` there is none. -/
structure Settled (deps : ServerDeps Req Resp Ev) (s : Served Req Resp Ev) : Prop where
  taken : ∀ line pending, s.conn.stage = .awaiting line pending →
    (deps.request? line).isSome ∧ s.lines.getLast? = some line ∧
      (pending.isSome → isSubscribe deps line = true)
  acking : ∀ message p, s.conn.stage = .sending message (some p) →
    (∃ resp, message = .response resp) ∧
      ∃ line, s.lines.getLast? = some line ∧ isSubscribe deps line = true
  delivering : ∀ ev pending, s.conn.stage = .sending (.event ev) pending →
    s.conn.subscription.isSome
  inBus : ∀ p, s.conn.subscription = some p → p ≤ s.conn.bus.length
  ahead : ∀ p, s.conn.stage.pending = some p →
    p ≤ s.conn.bus.length ∧ ∀ o, s.conn.subscription = some o → o ≤ p
  sinceInBus : ∀ k, s.since = some k → k ≤ s.conn.bus.length
  fresh : s.since = none → s.conn.subscription = none ∧ s.conn.stage.pending = none ∧
    events (s.conn.written ++ s.conn.stage.message) = []

/-- **What a connection has settled stays settled.** -/
theorem Settled.step (h : s.Settled deps) (hgoes : Goes deps s s' move) : s'.Settled deps := by
  cases hgoes with
  | idle _ heq =>
      rw [heq]
      exact h
  | closed _ heq =>
      subst heq
      refine ⟨nofun, nofun, nofun, h.inBus, nofun, h.sinceInBus, fun hnone => ?_⟩
      obtain ⟨hsubscription, -, hevents⟩ := h.fresh hnone
      refine ⟨hsubscription, rfl, ?_⟩
      rw [events, List.filterMap_append] at hevents
      simpa [Connection.close, Stage.message, events] using (List.append_eq_nil_iff.mp hevents).1
  | @broadcast ev heq =>
      subst heq
      have hgrow : s.conn.bus.length ≤ (s.conn.bus ++ [ev]).length := by simp
      refine ⟨h.taken, h.acking, h.delivering, fun p hp => (h.inBus p hp).trans hgrow,
        fun p hp => ⟨(h.ahead p hp).1.trans hgrow, (h.ahead p hp).2⟩,
        fun k hk => (h.sinceInBus k hk).trans hgrow, h.fresh⟩
  | arrive heq =>
      subst heq
      exact ⟨h.taken, h.acking, h.delivering, h.inBus, h.ahead, h.sinceInBus, h.fresh⟩
  | more _ _ heq =>
      subst heq
      exact ⟨h.taken, h.acking, h.delivering, h.inBus, h.ahead, h.sinceInBus, h.fresh⟩
  | malformed hstage _ _ _ _ heq =>
      subst heq
      refine ⟨nofun, nofun, nofun, h.inBus, nofun, h.sinceInBus, fun hnone => ?_⟩
      obtain ⟨hsubscription, -, hevents⟩ := h.fresh hnone
      rw [hstage] at hevents
      refine ⟨hsubscription, rfl, ?_⟩
      simpa [Stage.message, events] using hevents
  | @taken n chunk unread line req hstage _ _ _ hrequest heq =>
      subst heq
      have hsubscribe : isSubscribe deps line = deps.isSubscribe req := by
        simp [isSubscribe, hrequest]
      -- the receiver of a `Subscribe` is made at the end of the channel, ahead of any other
      refine ⟨?_, nofun, nofun, h.inBus, ?_, ?_, ?_⟩
      · intro l pending hl
        cases hl
        refine ⟨by rw [hrequest]; rfl, by simp, fun hpending => ?_⟩
        rw [hsubscribe]
        by_contra hno
        simp [hno] at hpending
      · intro p hp
        simp only [Stage.pending] at hp
        split at hp
        · cases hp
          exact ⟨le_rfl, fun o ho => h.inBus o ho⟩
        · cases hp
      · intro k hk
        simp only at hk
        split at hk
        · cases hk
          exact le_rfl
        · exact h.sinceInBus k hk
      · intro hnone
        simp only at hnone
        split at hnone
        · cases hnone
        · next hno =>
          obtain ⟨hsubscription, -, hevents⟩ := h.fresh hnone
          rw [hnone] at hno
          rw [hstage] at hevents
          refine ⟨hsubscription, ?_, by simpa [Stage.message] using hevents⟩
          simpa [Stage.pending] using hno
  | @received next ev hstage hsubscription hev heq =>
      subst heq
      -- the receiver moves past an event that is there
      have hlt : next < s.conn.bus.length := (List.getElem?_eq_some_iff.mp hev).1
      refine ⟨nofun, nofun, fun _ _ _ => rfl, ?_, nofun, h.sinceInBus, fun hnone => ?_⟩
      · intro p hp
        cases hp
        exact hlt
      · rw [(h.fresh hnone).1] at hsubscription
        cases hsubscription
  | @replied resp line pending hstage heq =>
      subst heq
      obtain ⟨-, hlast, hsubscribe⟩ := h.taken line pending hstage
      have hpending : s.conn.stage.pending = pending := by rw [hstage]; rfl
      refine ⟨nofun, ?_, nofun, h.inBus, ?_, h.sinceInBus, fun hnone => ?_⟩
      · intro message p hp
        cases hp
        exact ⟨⟨resp, rfl⟩, line, hlast, hsubscribe rfl⟩
      · exact fun p hp => h.ahead p (hpending.trans hp)
      · obtain ⟨hsubscription, hnopending, hevents⟩ := h.fresh hnone
        rw [hstage] at hevents
        refine ⟨hsubscription, hpending.symm.trans hnopending, ?_⟩
        simpa [Stage.message, events] using hevents
  | @flushed message pending hstage _ heq =>
      subst heq
      have hpending : s.conn.stage.pending = pending := by rw [hstage]; rfl
      refine ⟨nofun, nofun, nofun, ?_, nofun, h.sinceInBus, fun hnone => ?_⟩
      · intro p hp
        simp only at hp
        split at hp
        · exact (h.ahead p (hpending.trans hp)).1
        · exact h.inBus p hp
      · obtain ⟨hsubscription, hnopending, hevents⟩ := h.fresh hnone
        rw [hpending] at hnopending
        rw [hstage] at hevents
        refine ⟨?_, rfl, by simpa [Stage.message] using hevents⟩
        simp [hnopending, hsubscription]

/-! ## Responses -/

/-- Lines and answers are matched at every open stage. -/
theorem InOrder.at_stage (h : s.InOrder deps) {stage : Stage Req Resp Ev}
    (hstage : s.conn.stage = stage) (hopen : stage.IsOpen) :
    s.answers.map Prod.fst ++ stage.asked = s.lines ∧
      Ipc.responses (s.conn.written ++ stage.message) = s.answers.map Prod.snd := by
  subst hstage
  exact ⟨h.answered hopen, h.responses hopen⟩

/-- A whole line leaves the buffer for the lines. -/
theorem InOrder.line_read (h : s.InOrder deps) {chunk unread line : Bytes}
    (hunread : s.conn.unread = chunk ++ newline :: unread) (hchunk : newline ∉ chunk)
    (hline : line = s.conn.buffer ++ chunk ++ [newline]) :
    (s.lines ++ [line]).flatten ++ [] ++ unread = s.sent ∧
      ∀ l ∈ s.lines ++ [line], ∃ body, l = body ++ [newline] ∧ newline ∉ body := by
  refine ⟨?_, fun l hl => ?_⟩
  · rw [← h.stream, hunread, hline]
    simp
  · obtain hl | hl := List.mem_append.mp hl
    · exact h.ended l hl
    · rw [List.mem_singleton.mp hl, hline]
      exact ⟨_, rfl, fun hmem => (List.mem_append.mp hmem).elim h.unended hchunk⟩

/-- A further answer, a rejection where the line is no request. -/
theorem InOrder.rejected_append (h : s.InOrder deps) {line : Bytes} {resp : Resp}
    (hresp : deps.request? line = none → resp = deps.rejection line) (l : Bytes) (r : Resp)
    (hmem : (l, r) ∈ s.answers ++ [(line, resp)]) (hrejected : deps.request? l = none) :
    r = deps.rejection l := by
  obtain hmem | hmem := List.mem_append.mp hmem
  · exact h.rejected l r hmem hrejected
  · cases List.mem_singleton.mp hmem
    exact hresp hrejected

/-- **The order is kept**: requests are taken as they were sent, and answered as they were taken. -/
theorem InOrder.step (h : s.InOrder deps) (hsettled : s.Settled deps)
    (hgoes : Goes deps s s' move) : s'.InOrder deps := by
  cases hgoes with
  | idle _ heq =>
      rw [heq]
      exact h
  | closed _ heq =>
      subst heq
      exact ⟨h.stream, h.ended, h.unended, False.elim, False.elim, h.rejected⟩
  | broadcast heq =>
      subst heq
      exact ⟨h.stream, h.ended, h.unended, h.answered, h.responses, h.rejected⟩
  | arrive heq =>
      subst heq
      refine ⟨?_, h.ended, h.unended, h.answered, h.responses, h.rejected⟩
      rw [← h.stream, List.append_assoc _ s.conn.unread]
  | more hunread hchunk heq =>
      subst heq
      refine ⟨?_, h.ended, ?_, h.answered, h.responses, h.rejected⟩
      · rw [← h.stream, hunread]
        simp only [List.append_assoc]
      · exact fun hmem => (List.mem_append.mp hmem).elim h.unended hchunk
  | malformed hstage hunread hchunk hline hrequest heq =>
      subst heq
      obtain ⟨hstream, hended⟩ := h.line_read hunread hchunk hline
      obtain ⟨hanswered, hresponses⟩ := h.at_stage hstage trivial
      refine ⟨hstream, hended, List.not_mem_nil, fun _ => ?_, fun _ => ?_,
        h.rejected_append fun _ => rfl⟩
      · simp [Stage.asked, ← hanswered]
      · simp only [Ipc.responses, Stage.message, List.append_nil] at hresponses
        simp [Ipc.responses, Stage.message, hresponses]
  | taken hstage hunread hchunk hline hrequest heq =>
      subst heq
      obtain ⟨hstream, hended⟩ := h.line_read hunread hchunk hline
      obtain ⟨hanswered, hresponses⟩ := h.at_stage hstage trivial
      refine ⟨hstream, hended, List.not_mem_nil, fun _ => ?_, fun _ => hresponses, h.rejected⟩
      simp only [Stage.asked, List.append_nil] at hanswered
      simp [Stage.asked, hanswered]
  | received hstage _ _ heq =>
      subst heq
      obtain ⟨hanswered, hresponses⟩ := h.at_stage hstage trivial
      refine ⟨h.stream, h.ended, h.unended, fun _ => hanswered, fun _ => ?_, h.rejected⟩
      -- an event in flight is no response
      rw [← hresponses]
      simp [Ipc.responses, Stage.message]
  | replied hstage heq =>
      subst heq
      obtain ⟨hanswered, hresponses⟩ := h.at_stage hstage trivial
      have hrequest := (hsettled.taken _ _ hstage).1
      refine ⟨h.stream, h.ended, h.unended, fun _ => ?_, fun _ => ?_,
        h.rejected_append fun hnone => ?_⟩
      · rw [← hanswered]
        simp [Stage.asked]
      · simp only [Ipc.responses, Stage.message, List.append_nil] at hresponses
        simp [Ipc.responses, Stage.message, hresponses]
      · rw [hnone] at hrequest
        cases hrequest
  | flushed hstage hfits heq =>
      subst heq
      obtain ⟨hanswered, hresponses⟩ := h.at_stage hstage trivial
      refine ⟨h.stream, h.ended, h.unended, fun _ => hanswered, fun _ => ?_, h.rejected⟩
      rw [← hresponses]
      simp [Ipc.responses, Stage.message]

/-! ## Events -/

/-- A receiver in use belongs to a `Subscribe` whose answer has been written. -/
def Acked (deps : ServerDeps Req Resp Ev) (s : Served Req Resp Ev)
    (written : List (Message Req Resp Ev)) : Prop :=
  ∃ i line, s.lines[i]? = some line ∧ isSubscribe deps line = true ∧ i < (responses written).length

/-- The lines taken up only grow, and keep their order. -/
theorem Goes.lines_prefix (hgoes : Goes deps s s' move) {i : ℕ} {line : Bytes}
    (h : s.lines[i]? = some line) : s'.lines[i]? = some line := by
  have hgrow : ∀ l, (s.lines ++ [l])[i]? = some line := fun l => by
    rw [List.getElem?_append_left (List.getElem?_eq_some_iff.mp h).1, h]
  cases hgoes with
  | idle _ heq => rwa [heq]
  | closed _ heq => rwa [heq]
  | broadcast heq => rwa [heq]
  | arrive heq => rwa [heq]
  | more _ _ heq => rwa [heq]
  | malformed _ _ _ _ _ heq =>
      rw [heq]
      exact hgrow _
  | taken _ _ _ _ _ heq =>
      rw [heq]
      exact hgrow _
  | received _ _ _ heq => rwa [heq]
  | replied _ heq => rwa [heq]
  | flushed _ _ heq => rwa [heq]

/-- Only a flush writes, and only a flush installs a receiver. -/
theorem Goes.written_eq (hgoes : Goes deps s s' move) (hmove : move ≠ .flushed) :
    s'.conn.written = s.conn.written ∧
      (s'.conn.subscription.isSome = true → s.conn.subscription.isSome = true) := by
  -- only a flush writes, and only it changes the subscription
  cases hgoes with
  | idle _ heq =>
      rw [heq]
      exact ⟨rfl, id⟩
  | closed _ heq =>
      rw [heq]
      exact ⟨rfl, id⟩
  | broadcast heq =>
      rw [heq]
      exact ⟨rfl, id⟩
  | arrive heq =>
      rw [heq]
      exact ⟨rfl, id⟩
  | more _ _ heq =>
      rw [heq]
      exact ⟨rfl, id⟩
  | malformed _ _ _ _ _ heq =>
      rw [heq]
      exact ⟨rfl, id⟩
  | taken _ _ _ _ _ heq =>
      rw [heq]
      exact ⟨rfl, id⟩
  | received _ hsubscription _ heq =>
      rw [heq, hsubscription]
      exact ⟨rfl, id⟩
  | replied _ heq =>
      rw [heq]
      exact ⟨rfl, id⟩
  | flushed _ _ _ => exact absurd rfl hmove

/-- A receiver in use has been acknowledged, and no event was written before an acknowledgement. -/
structure Announced (deps : ServerDeps Req Resp Ev) (s : Served Req Resp Ev) : Prop where
  acked : s.conn.subscription.isSome → s.Acked deps s.conn.written
  first : s.AckFirst deps

/-- **What is announced is kept**: an answer to `Subscribe` is written before any event. -/
theorem Announced.step (h : s.Announced deps) (hsettled : s.Settled deps) (horder : s.InOrder deps)
    (hgoes : Goes deps s s' move) : s'.Announced deps := by
  have hkept : ∀ {written}, s.Acked deps written → s'.Acked deps written := by
    rintro written ⟨i, line, hi, hline, hlt⟩
    exact ⟨i, line, hgoes.lines_prefix hi, hline, hlt⟩
  by_cases hmove : move = .flushed
  · subst hmove
    cases hgoes with
    | idle _ heq =>
        rw [heq]
        exact h
    | closed _ heq =>
        subst heq
        exact ⟨h.acked, h.first⟩
    | @flushed message pending hstage _ heq =>
        subst heq
        have hopen : s.conn.stage.IsOpen := by rw [hstage]; trivial
        refine ⟨fun hsome => ?_, fun before ev after hwritten => ?_⟩
        · cases pending with
          | none =>
              -- the receiver was there, and more has been written since
              obtain ⟨i, line, hi, hline, hlt⟩ := h.acked (by simpa using hsome)
              refine ⟨i, line, hi, hline, hlt.trans_le ?_⟩
              simp [responses, List.filterMap_append]
          | some p =>
              -- its acknowledgement is what has just been written, the answer to the last line
              obtain ⟨⟨resp, rfl⟩, line, hlast, hsubscribe⟩ := hsettled.acking message p hstage
              obtain ⟨hanswered, hresponded⟩ := horder.at_stage hstage trivial
              have hresponses := congrArg List.length hresponded
              have hlength : s.lines.length = s.answers.length := by
                rw [← hanswered]
                simp [Stage.asked]
              refine ⟨s.lines.length - 1, line, ?_, hsubscribe, ?_⟩
              · rw [← List.getLast?_eq_getElem?]
                exact hlast
              · have hpos : 0 < s.lines.length :=
                  List.length_pos_iff.mpr fun hnil => by simp [hnil] at hlast
                simp only [Stage.message, List.length_map] at hresponses
                rw [hresponses, ← hlength]
                omega
        · obtain rfl | ⟨after', last, rfl⟩ := List.eq_nil_or_concat' after
          · obtain ⟨rfl, hlast⟩ := List.append_inj' hwritten rfl
            cases hlast
            exact h.acked (hsettled.delivering ev pending hstage)
          · have hsplit : s.conn.written ++ [message] = (before ++ .event ev :: after') ++ [last] := by
              simpa using hwritten
            exact h.first before ev after' (List.append_inj' hsplit rfl).1
  · obtain ⟨hwritten, hsubscription⟩ := hgoes.written_eq hmove
    refine ⟨fun hsome => ?_, fun before ev after hsplit => ?_⟩
    · rw [hwritten]
      exact hkept (h.acked (hsubscription hsome))
    · rw [hwritten] at hsplit
      exact hkept (h.first before ev after hsplit)

/-- The receiver stays where it is, and the events written and being written are the same. -/
theorem Complete.congr (h : s.Complete) (hopen : s'.conn.stage.IsOpen → s.conn.stage.IsOpen)
    (hsince : s'.since = s.since) (hposition : s'.position = s.position)
    (hbus : s'.conn.bus = s.conn.bus)
    (hevents : events (s'.conn.written ++ s'.conn.stage.message) =
      events (s.conn.written ++ s.conn.stage.message)) : s'.Complete := by
  intro hs k hk
  rw [hposition, hevents, hbus]
  exact h (hopen hs) k (hsince ▸ hk)

/-- With a receiver in use, that is where the next event comes from. -/
theorem position_of_subscription {p : ℕ} (h : s.conn.subscription = some p) : s.position = some p := by
  simp [position, h]

/-- Between two requests only a receiver in use can be meant. -/
theorem subscription_of_reading {p : ℕ} (hstage : s.conn.stage = .reading)
    (h : s.position = some p) : s.conn.subscription = some p := by
  unfold position at h
  split at h
  · exact h
  · rw [hstage] at h
    cases h

/-- **A receiver in use is replaced.** The old one goes, and with it what it had not read. -/
theorem Complete.replaced_iff (h : s.Complete) (hsettled : s.Settled deps)
    {message : Message Req Resp Ev} {old new : ℕ}
    (hstage : s.conn.stage = .sending message (some new)) (hsubscription : s.conn.subscription = some old) :
    ({ s with
      conn := { s.conn with
        written := s.conn.written ++ [message], stage := .reading
        subscription := some new } } : Served Req Resp Ev).Complete ↔ old = new := by
  have hpending : s.conn.stage.pending = some new := by rw [hstage]; rfl
  -- something is subscribed to, so a time has been noted since when
  have hbegun : s.since ≠ none := by
    intro hnone
    rw [(hsettled.fresh hnone).1] at hsubscription
    cases hsubscription
  obtain ⟨k, hsince⟩ := Option.ne_none_iff_exists'.mp hbegun
  obtain ⟨p, hposition, hevents⟩ := h (by rw [hstage]; trivial) k hsince
  rw [position_of_subscription hsubscription] at hposition
  cases hposition
  rw [hstage] at hevents
  constructor
  -- what is unread is the same before and after, so both positions are as far from the end
  · intro hcomplete
    obtain ⟨p, hposition, hevents'⟩ := hcomplete trivial k hsince
    cases hposition
    simp only [Stage.message, List.append_nil] at hevents hevents'
    have hdrop := congrArg List.length (List.append_cancel_left (hevents.trans hevents'.symm))
    rw [List.length_drop, List.length_drop] at hdrop
    have hold := hsettled.inBus old hsubscription
    have hnew := (hsettled.ahead new hpending).1
    omega
  · intro hsame _ j hj
    have hjk : j = k := Option.some.inj (hj.symm.trans hsince)
    refine ⟨new, rfl, ?_⟩
    rw [hjk, ← hevents, hsame]
    simp [Stage.message]

/-- Between two requests: the receiver in use is the one meant, and nothing is being written. -/
theorem Complete.reading (h : s.Complete) (hstage : s.conn.stage = .reading) {k : ℕ}
    (hk : s.since = some k) :
    ∃ p, s.conn.subscription = some p ∧
      events s.conn.written ++ s.conn.bus.drop p = s.conn.bus.drop k := by
  obtain ⟨p, hposition, hevents⟩ := h (by rw [hstage]; trivial) k hk
  simp only [hstage, Stage.message, List.append_nil] at hevents
  exact ⟨p, subscription_of_reading hstage hposition, hevents⟩

/-- An event that is broadcast joins those still to be received. -/
theorem Complete.broadcast (h : s.Complete) (hsettled : s.Settled deps) (ev : Ev) :
    Complete { s with conn := { s.conn with bus := s.conn.bus ++ [ev] } } := by
  intro hopen k hk
  obtain ⟨p, hposition, hevents⟩ := h hopen k hk
  have hp : p ≤ s.conn.bus.length := by
    unfold position at hposition
    split at hposition
    · exact hsettled.inBus p hposition
    · exact (hsettled.ahead p hposition).1
  -- the event joins those still to be received, at both ends of the equation
  refine ⟨p, hposition, ?_⟩
  show _ ++ (s.conn.bus ++ [ev]).drop p = (s.conn.bus ++ [ev]).drop k
  rw [List.drop_append_of_le_length hp, List.drop_append_of_le_length (hsettled.sinceInBus k hk),
    ← List.append_assoc, hevents]

/-- A message is written, and the receiver of the request it answers takes over. -/
theorem Complete.flushed_iff (h : s.Complete) (hsettled : s.Settled deps)
    {message : Message Req Resp Ev} {pending : Option ℕ}
    (hstage : s.conn.stage = .sending message pending) (hfits : deps.fits message = true) :
    Complete { s with
      conn := { s.conn with
        written := s.conn.written ++ [message], stage := .reading
        subscription := if pending.isSome then pending else s.conn.subscription } } ↔
      s.KeepsUnread deps .flushed := by
  have hopen : s.conn.stage.IsOpen := by rw [hstage]; trivial
  cases pending with
  | none =>
      refine iff_of_true (h.congr (fun _ => hopen) rfl ?_ rfl ?_) ?_
      · simp [position, hstage, Stage.pending]
      -- a message that is written for no subscription leaves all events where they were
      · simp [hstage, Stage.message]
      · intro m old new hsending
        rw [hstage] at hsending
        cases hsending
  | some new =>
      obtain ⟨⟨resp, rfl⟩, -⟩ := hsettled.acking message new hstage
      have hpending : s.conn.stage.pending = some new := by rw [hstage]; rfl
      cases hsubscription : s.conn.subscription with
      | none =>
          -- the first subscription: none is replaced
          refine iff_of_true (h.congr (fun _ => hopen) rfl ?_ rfl ?_) ?_
          · simp [position, hsubscription, hpending]
          · simp [hstage, Stage.message]
          · intro m old new' _ hold
            rw [hsubscription] at hold
            cases hold
      | some old =>
          have hkeeps : s.KeepsUnread deps .flushed ↔ old = new := by
            constructor
            -- an event that is unread in the old one would be lost, unless the two are one
            · exact fun hkeeps => hkeeps _ old new hstage hsubscription hfits
            · intro hsame m o n hsending hold _
              rw [hstage] at hsending
              rw [hsubscription] at hold
              cases hsending
              cases hold
              exact hsame
          rw [hkeeps]
          exact h.replaced_iff hsettled hstage hsubscription

/-- **A move keeps completeness** exactly if it drops no event that is unread. -/
theorem Goes.complete_iff (hgoes : Goes deps s s' move) (hsettled : s.Settled deps)
    (h : s.Complete) : s'.Complete ↔ s.KeepsUnread deps move := by
  -- every move but a flush keeps completeness, and only a flush can leave something unread behind
  cases hgoes with
  | idle hmove heq =>
      rw [heq]
      refine iff_of_true h ?_
      cases move with
      | flushed => exact fun message old new hstage => absurd rfl (hmove message _ hstage)
      | _ => trivial
  | closed hmove heq =>
      subst heq
      refine iff_of_true (fun hopen => hopen.elim) ?_
      cases move with
      | flushed =>
          intro message old new hstage _ hfits
          rw [hmove message _ hstage rfl] at hfits
          cases hfits
      | _ => trivial
  | @broadcast ev heq =>
      subst heq
      exact iff_of_true (h.broadcast hsettled ev) trivial
  | arrive heq =>
      subst heq
      exact iff_of_true (h.congr id rfl rfl rfl rfl) trivial
  | more _ _ heq =>
      subst heq
      exact iff_of_true (h.congr id rfl rfl rfl rfl) trivial
  | malformed hstage _ _ _ _ heq =>
      subst heq
      refine iff_of_true (fun _ k hk => ?_) trivial
      obtain ⟨p, hsubscription, hevents⟩ := h.reading hstage hk
      refine ⟨p, position_of_subscription hsubscription, ?_⟩
      rw [← hevents]
      simp [events, Stage.message]
  | @taken n chunk unread line req hstage _ _ _ hrequest heq =>
      subst heq
      refine iff_of_true (fun _ k hk => ?_) trivial
      simp only at hk
      split at hk
      · -- the first `Subscribe`: its receiver is the one meant, and no event has been written
        next hfirst =>
        cases hk
        simp only [Bool.and_eq_true, Option.isNone_iff_eq_none] at hfirst
        obtain ⟨hsubscription, -, hevents⟩ := hsettled.fresh hfirst.1
        rw [hstage] at hevents
        refine ⟨s.conn.bus.length, ?_, ?_⟩
        · simp [position, hsubscription, Stage.pending, hfirst.2]
        · simpa [Stage.message] using hevents
      · obtain ⟨p, hsubscription, hevents⟩ := h.reading hstage hk
        refine ⟨p, position_of_subscription hsubscription, ?_⟩
        rw [← hevents]
        simp [Stage.message]
  | @received next ev hstage hsubscription hev heq =>
      subst heq
      refine iff_of_true (fun _ k hk => ?_) trivial
      obtain ⟨p, hreceiver, hevents⟩ := h.reading hstage hk
      cases hsubscription.symm.trans hreceiver
      -- what leaves the receiver is what is being written now
      obtain ⟨hlt, hget⟩ := List.getElem?_eq_some_iff.mp hev
      refine ⟨next + 1, rfl, ?_⟩
      rw [← hevents, List.drop_eq_getElem_cons hlt, hget]
      simp [events, Stage.message]
  | @replied resp line pending hstage heq =>
      subst heq
      refine iff_of_true (h.congr (fun _ => by rw [hstage]; trivial) rfl ?_ rfl ?_) trivial
      · simp [position, hstage, Stage.pending]
      · simp [events, hstage, Stage.message]
  | flushed hstage hfits heq =>
      subst heq
      exact h.flushed_iff hsettled hstage hfits

/-! ## Runs -/

/-- The state after the first moves of a run. -/
abbrev after (deps : ServerDeps Req Resp Ev) (bus : List Ev) (moves : List (Move Resp Ev)) (n : ℕ) :
    Served Req Resp Ev := Run.after (step deps) (accepted bus) moves n

/-- A connection that has just been accepted has settled nothing that is not so. -/
theorem settled_accepted (deps : ServerDeps Req Resp Ev) (bus : List Ev) :
    (accepted bus : Served Req Resp Ev).Settled deps where
  taken := nofun
  acking := nofun
  delivering := nofun
  inBus := nofun
  ahead := nofun
  sinceInBus := nofun
  fresh _ := ⟨rfl, rfl, rfl⟩

/-- Nothing has been sent on it or answered yet. -/
theorem inOrder_accepted (deps : ServerDeps Req Resp Ev) (bus : List Ev) :
    (accepted bus : Served Req Resp Ev).InOrder deps where
  stream := rfl
  ended := nofun
  unended := List.not_mem_nil
  answered _ := rfl
  responses _ := rfl
  rejected := nofun

/-- And nothing has been announced. -/
theorem announced_accepted (deps : ServerDeps Req Resp Ev) (bus : List Ev) :
    (accepted bus : Served Req Resp Ev).Announced deps where
  acked := nofun
  first before ev after h := by
    have hlength := congrArg List.length h
    simp [accepted] at hlength

/-- The reader waits, and the receiver is looked at and what it has is written, this many times. -/
def deliver (deps : ServerDeps Req Resp Ev) (rounds : ℕ) (s : Served Req Resp Ev) :
    Served Req Resp Ev :=
  (List.replicate rounds [Move.recv, .flushed]).flatten.foldl (step deps) s

/-- **Delivery goes on.** From a state in which nothing is missed, with the reader waiting and the
receiver within what the channel holds, delivery writes every event there is. -/
theorem Complete.drain (hcomplete : s.Complete) (hstage : s.conn.stage = .reading) {k p : ℕ}
    (hsince : s.since = some k) (hsubscription : s.conn.subscription = some p)
    (hlag : s.conn.bus.length - p ≤ deps.capacity)
    (hfits : ∀ ev ∈ s.conn.bus, deps.fits (.event ev) = true) :
    ∃ rounds, (s.deliver deps rounds).conn.stage = .reading ∧
      (s.deliver deps rounds).conn.bus = s.conn.bus ∧
        events (s.deliver deps rounds).conn.written = s.conn.bus.drop k := by
  -- on how far the receiver is behind
  generalize hbehind : s.conn.bus.length - p = behind
  induction behind generalizing s p with
  | zero =>
      refine ⟨0, hstage, rfl, ?_⟩
      obtain ⟨q, hreceiver, hevents⟩ := hcomplete.reading hstage hsince
      cases hsubscription.symm.trans hreceiver
      rw [List.drop_of_length_le (by omega)] at hevents
      simpa [deliver] using hevents
  | succ behind ih =>
      have hlt : p < s.conn.bus.length := by omega
      have hev : s.conn.bus[p]? = some s.conn.bus[p] := List.getElem?_eq_getElem hlt
      have hfit := hfits _ (List.getElem_mem hlt)
      let t : Served Req Resp Ev := { s with
        conn := { s.conn with
          subscription := some (p + 1), written := s.conn.written ++ [.event s.conn.bus[p]] } }
      have hround : (s.step deps .recv).step deps .flushed = t := by
        have hrecv : s.step deps .recv = { s with conn := { s.conn with
            subscription := some (p + 1), stage := .sending (.event s.conn.bus[p]) none } } := by
          rw [record_eq (by simp [newLine]) (by simp [newAnswer, newLine]) (by simp)]
          have hnolag : ¬ deps.capacity < s.conn.bus.length - p := by omega
          simp [Connection.step, Connection.recv, hstage, hsubscription, hev, hnolag]
        rw [hrecv, record_eq (by simp [newLine]) (by simp [newAnswer, newLine]) (by simp)]
        simp [Connection.step, hfit, t, hstage]
      have ht : t.Complete := by
        intro _ j hj
        obtain ⟨q, hreceiver, hevents⟩ := hcomplete.reading hstage hj
        cases hsubscription.symm.trans hreceiver
        refine ⟨p + 1, rfl, ?_⟩
        show events (s.conn.written ++ [.event s.conn.bus[p]] ++ s.conn.stage.message) ++ _ = _
        rw [← hevents, List.drop_eq_getElem_cons hlt, hstage]
        simp [events, Stage.message, t]
      obtain ⟨rounds, hrounds⟩ := ih (s := t) ht hstage hsince rfl
        (by show s.conn.bus.length - (p + 1) ≤ _; omega) hfits
        (by show s.conn.bus.length - (p + 1) = _; omega)
      have hdeliver : s.deliver deps (rounds + 1) = t.deliver deps rounds := by
        rw [deliver, List.replicate_succ, List.flatten_cons, List.foldl_append]
        exact congrArg (deliver deps rounds) hround
      refine ⟨rounds + 1, ?_⟩
      rw [hdeliver]
      exact hrounds

/-- **An IPC connection, exactly.** Whatever the client sends, the daemon broadcasts and answers, in
any order: the responses answer the lines in order, and no event comes before the first `Subscribe`
has been acknowledged. No event is missed in any state of the run if and only if no further
`Subscribe` is acknowledged while events were unread; and where none is missed, delivery writes them
all, unless the connection is closed. -/
theorem served_in_order (deps : ServerDeps Req Resp Ev) (bus : List Ev)
    (moves : List (Move Resp Ev)) :
    (∀ n, (after deps bus moves n).InOrder deps ∧ (after deps bus moves n).AckFirst deps) ∧
    ((∀ n, (after deps bus moves n).Complete) ↔
      ∀ n move, moves[n]? = some move → (after deps bus moves n).KeepsUnread deps move) ∧
    ∀ n k p, (after deps bus moves n).Complete → (after deps bus moves n).conn.stage = .reading →
      (after deps bus moves n).since = some k →
      (after deps bus moves n).conn.subscription = some p →
      (after deps bus moves n).conn.bus.length - p ≤ deps.capacity →
      (∀ ev ∈ (after deps bus moves n).conn.bus, deps.fits (.event ev) = true) →
      ∃ rounds, ((after deps bus moves n).deliver deps rounds).conn.stage = .reading ∧
        ((after deps bus moves n).deliver deps rounds).conn.bus = (after deps bus moves n).conn.bus ∧
          events ((after deps bus moves n).deliver deps rounds).conn.written =
            (after deps bus moves n).conn.bus.drop k := by
  -- the three invariants hold whatever the client and the library do
  have hsettled : ∀ n, (after deps bus moves n).Settled deps :=
    Run.invariant (settled_accepted deps bus) fun n move _ h => h.step (step_goes _ move)
  have horder : ∀ n, (after deps bus moves n).InOrder deps :=
    Run.invariant (inOrder_accepted deps bus) fun n move _ h => h.step (hsettled n) (step_goes _ move)
  have hannounced : ∀ n, (after deps bus moves n).Announced deps :=
    Run.invariant (announced_accepted deps bus) fun n move _ h =>
      h.step (hsettled n) (horder n) (step_goes _ move)
  refine ⟨fun n => ⟨horder n, (hannounced n).first⟩, ?_, ?_⟩
  · have hstart : (accepted bus : Served Req Resp Ev).Settled deps ∧
        (accepted bus : Served Req Resp Ev).Complete := ⟨settled_accepted deps bus, nofun⟩
    -- completeness is kept by a step exactly if the step drops no event that is unread
    have hexact : ∀ (t : Served Req Resp Ev) (move : Move Resp Ev), t.Settled deps ∧ t.Complete →
        ((t.step deps move).Settled deps ∧ (t.step deps move).Complete ↔
          t.KeepsUnread deps move) := by
      intro t move h
      rw [and_iff_right (h.1.step (step_goes t move))]
      exact (step_goes t move).complete_iff h.1 h.2
    rw [← Run.forall_iff (P := fun t => t.Settled deps ∧ t.Complete) hstart hexact]
    exact forall_congr' fun n => (and_iff_right (hsettled n)).symm
  · intro n k p hcomplete hstage hsince hsubscription hlag hfits
    exact hcomplete.drain hstage hsince hsubscription hlag hfits

/-- A server for which every line is a `Subscribe`. -/
def sampleDeps : ServerDeps Unit Unit Unit where
  fromSlice _ := .ok (.request ())
  toVec _ := .ok []
  debug _ := ""
  isSubscribe _ := true
  error _ := ()
  capacity := 16

/-- A `Subscribe` is sent, taken up, answered and acknowledged. -/
def sampleSubscribe : List (Move Unit Unit) :=
  [.arrive [0x73, newline], .fill 2, .reply (), .flushed]

/-- An event that is broadcast before a second `Subscribe` is taken up, and not received by then, is
not written. -/
theorem second_subscribe_loses_event :
    ¬ ∀ (deps : ServerDeps Unit Unit Unit) (bus : List Unit) (moves : List (Move Unit Unit)) (n : ℕ),
      (after deps bus moves n).Complete := by
  intro h
  let s := after sampleDeps [] (sampleSubscribe ++ [.broadcast ()] ++ sampleSubscribe) 9
  have hstage : s.conn.stage = .reading := rfl
  obtain ⟨p, hposition, hevents⟩ :=
    h sampleDeps [] (sampleSubscribe ++ [.broadcast ()] ++ sampleSubscribe) 9
      (by rw [show (after _ _ _ 9).conn.stage = .reading from hstage]; trivial) 0 rfl
  have hp : s.position = some 1 := rfl
  cases hp.symm.trans hposition
  have hnone : ([] : List Unit) = [()] := hevents
  cases hnone

end Served

end Ipc

end Synbad
