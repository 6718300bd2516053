import Synbad.Ipc.Wire
import Synbad.Lib.LineReader
import Mathlib.Data.List.TakeWhile

/-! # Message lines on both ends

A message travels as one line. Both ends check a line against the same limit before they write it, and
both read lines through a buffered reader: the server with a buffer that outlives the future it reads
in, the client with a buffer of each call. What the readers return is compared here with what the
senders let through, whatever the chunks that arrive.

Both readers are instances of the reader with a limit of `Lib.LineReader`, polled in different ways:
the server's future may be dropped for an event at any time and is made again, and the client's call
may be tried again or end at its deadline. So what they return is the lines that were sent, up to the
first that is too long, and no such line is ever sent. The lines are never at fault
(`lossless_iff_readsBack`); a message is lost between them exactly when its own line is not read back
as the message.

Of the messages of the daemon and the window the only ones with such a line are those with a gain that
is infinite or no number (`framing_lossless`), since JSON has no word for these. A document that
carries one can be written in the file, and the last theorem is what becomes of it on its way to the
window. -/

namespace Synbad

namespace Ipc

open LineReader

variable {Req Resp Ev : Type} (deps : ServerDeps Req Resp Ev)

/-! ## The senders -/

/-- Why a message is not written: it has no JSON, or its line is too large. -/
inductive SendError where
  | json (error : String)
  | tooLarge

/-- `send_message` up to the write: the line of a message, with its newline. -/
def ServerDeps.sendMessage (m : Message Req Resp Ev) : Except SendError Bytes :=
  match deps.toVec m with
  | .error e => .error (.json e)
  | .ok line =>
      let line := line ++ [newline]
      if maxMessageBytes < line.length then .error .tooLarge else .ok line

/-- `Connection::send` up to the write: the same check, on a request. -/
def ServerDeps.send (req : Req) : Except SendError Bytes := deps.sendMessage (.request req)

/-- The line of the message, if it has one, is read as the message. -/
def ServerDeps.ReadsBack (m : Message Req Resp Ev) : Prop :=
  ∀ bytes, deps.toVec m = .ok bytes → deps.fromSlice (bytes ++ [newline]) = .ok m

/-- The messages up to the first that its sender refuses. -/
def ServerDeps.sendable (ms : List (Message Req Resp Ev)) : List (Message Req Resp Ev) :=
  ms.takeWhile fun m => (deps.sendMessage m).isOk

/-! ## The readers -/

/-- What happens to the server's reader: a chunk is there when `read_message` is polled, or its
future is dropped for an event and made again. -/
inductive ServerPoll where
  | ready
  | drop
  deriving DecidableEq

/-- `read_message`, called again and again. A round with a chunk goes through the loop body; a line
that is complete is returned and its buffer taken. The future has nothing of its own across its only
`await`, so dropping it leaves the buffer and the reader as they are. -/
def serverStep (r : Reading UInt8) : ServerPoll → Reading UInt8
  | .ready => r.next newline maxMessageBytes
  | .drop => r

/-- What happens to the client's reader: a chunk is there, the read is tried again (interrupted, or
nothing to read yet), or the deadline has passed. -/
inductive ClientTick where
  | ready
  | retry
  | timedOut
  deriving DecidableEq

/-- `Connection::recv`, called again and again. The buffer is that of the call: it starts empty after
a line was returned, and is lost with a call that times out. -/
def clientStep (r : Reading UInt8) : ClientTick → Reading UInt8
  | .ready => r.next newline maxMessageBytes
  | .retry => r
  | .timedOut => { r with buffer := [] }

/-- What `recv` returned: each line as it was parsed. -/
def received (r : Reading UInt8) : List (Except String (Message Req Resp Ev)) :=
  r.lines.map deps.fromSlice

/-- A round of the connection's model is a round on the bytes that are to be had. -/
theorem readMessage_eq_round (buffer unread : Bytes) (n : ℕ) :
    readMessage buffer unread n =
      match LineReader.round newline maxMessageBytes buffer [unread.take n, unread.drop n] with
      | .eof => .pending
      | .tooLarge => .tooLarge
      | .more buffer chunks => .more buffer chunks.flatten
      | .line line chunks => .line line chunks.flatten := by
  have hlen : taken newline (unread.take n) ≤ (unread.take n).length := taken_le _
  -- the two chunks are what the read has brought and what it has left in the pipe
  have hflatten : (consume (taken newline (unread.take n)) [unread.take n, unread.drop n]).flatten =
      unread.drop (taken newline (unread.take n)) := by
    have hsplit : unread.take n ++ (unread.drop n ++ []) =
        (unread.take n).take (taken newline (unread.take n)) ++
          (consume (taken newline (unread.take n)) [unread.take n, unread.drop n]).flatten :=
      @flatten_consume _ _ [unread.take n, unread.drop n] hlen
    have htake : (unread.take n).take (taken newline (unread.take n)) =
        unread.take (taken newline (unread.take n)) := by
      rw [List.length_take] at hlen
      rw [List.take_take, Nat.min_eq_left (by omega)]
    rw [List.append_nil, List.take_append_drop, htake] at hsplit
    exact List.append_cancel_left (hsplit.symm.trans (List.take_append_drop _ _).symm)
  have htaken : ((List.findIdx? (· == newline) (unread.take n)).map (· + 1)).getD
      (unread.take n).length = taken newline (unread.take n) := by
    rw [taken, position]
    cases (unread.take n).findIdx? (· == newline) <;> rfl
  rcases eq_or_ne (unread.take n) [] with hempty | hne
  -- the pipe is empty, and the read goes on waiting
  · rw [readMessage, LineReader.round, fillBuf, List.headD_cons, hempty]
    rfl
  · have hround : LineReader.round newline maxMessageBytes buffer
        [unread.take n, unread.drop n] = _ := round_of_ne hne
    have hfill : fillBuf [unread.take n, unread.drop n] = unread.take n := rfl
    rw [hround, readMessage, List.isEmpty_eq_false_iff.mpr hne, hfill]
    dsimp only
    rw [htaken, if_neg Bool.false_ne_true]
    split
    case isTrue => rfl
    case isFalse =>
      unfold position
      split
      case isTrue => exact congrArg _ hflatten.symm
      case isFalse => exact congrArg _ hflatten.symm

/-! ## Both ends -/

variable {deps}

/-- The sender lets a message through exactly when its line is within the limit. -/
theorem sendMessage_isOk {m : Message Req Resp Ev} {bytes : Bytes}
    (h : deps.toVec m = .ok bytes) :
    (deps.sendMessage m).isOk = decide (bytes.length + 1 ≤ maxMessageBytes) := by
  rw [ServerDeps.sendMessage, h]
  dsimp only
  rw [List.length_append, List.length_singleton]
  split
  case isTrue hover => exact (decide_eq_false (by omega)).symm
  case isFalse hfits => exact (decide_eq_true (by omega)).symm

/-- What the sender writes is the line with its newline. -/
theorem sendMessage_eq {m : Message Req Resp Ev} {bytes line : Bytes}
    (h : deps.toVec m = .ok bytes) (hline : deps.sendMessage m = .ok line) :
    line = bytes ++ [newline] := by
  rw [ServerDeps.sendMessage, h] at hline
  dsimp only at hline
  split at hline
  case isTrue => exact absurd hline (fun heq => nomatch heq)
  case isFalse => exact (Except.ok.inj hline).symm

/-- The messages the sender lets through are those whose lines fit. -/
theorem fitting_eq {ms : List (Message Req Resp Ev)} {lines : List Bytes}
    (h : ms.map deps.toVec = lines.map .ok) :
    (deps.sendable ms).map deps.toVec = (fitting maxMessageBytes lines).map .ok := by
  induction ms generalizing lines with
  | nil =>
      cases lines with
      | nil => rfl
      | cons l lines => exact absurd h.symm (List.cons_ne_nil _ _)
  | cons m ms ih =>
      cases lines with
      | nil => exact absurd h (List.cons_ne_nil _ _)
      | cons l lines =>
          rw [List.map_cons, List.map_cons, List.cons.injEq] at h
          obtain ⟨hm, hms⟩ := h
          rw [ServerDeps.sendable, fitting, List.takeWhile_cons, List.takeWhile_cons,
            sendMessage_isOk hm]
          split
          case isTrue => exact congrArg₂ List.cons hm (ih hms)
          case isFalse => rfl

/-- Polls come to the rounds among them: the drops leave no trace. -/
theorem foldl_serverStep (polls : List ServerPoll) (r : Reading UInt8) :
    polls.foldl serverStep r = r.after newline maxMessageBytes (polls.count .ready) := by
  induction polls using List.reverseRecOn with
  | nil => rfl
  | append_singleton polls poll ih =>
      rw [List.foldl_append, ih, List.count_append]
      cases poll <;> rfl

/-- Without a timeout, ticks come to the rounds among them. -/
theorem foldl_clientStep (ticks : List ClientTick) (h : .timedOut ∉ ticks) (r : Reading UInt8) :
    ticks.foldl clientStep r = r.after newline maxMessageBytes (ticks.count .ready) := by
  induction ticks using List.reverseRecOn with
  | nil => rfl
  | append_singleton ticks tick ih =>
      rw [List.mem_append, not_or] at h
      rw [List.foldl_append, ih h.1, List.count_append]
      cases tick with
      | ready => rfl
      | retry => rfl
      | timedOut => exact absurd (List.mem_singleton.mpr rfl) h.2

/-- Every line is that of a message, if the lines are those of the messages. -/
theorem exists_message {ms : List (Message Req Resp Ev)} {lines : List Bytes}
    (h : ms.map deps.toVec = lines.map .ok) {l : Bytes} (hl : l ∈ lines) :
    ∃ m ∈ ms, deps.toVec m = .ok l := by
  have hmem : (.ok l : Except String Bytes) ∈ ms.map deps.toVec := by
    rw [h]
    exact List.mem_map_of_mem hl
  exact List.mem_map.mp hmem

/-- Every message has a line, if the lines are those of the messages. -/
theorem exists_line {ms : List (Message Req Resp Ev)} {lines : List Bytes}
    (h : ms.map deps.toVec = lines.map .ok) {m : Message Req Resp Ev} (hm : m ∈ ms) :
    ∃ l ∈ lines, deps.toVec m = .ok l := by
  have hmem : deps.toVec m ∈ lines.map (.ok : Bytes → Except String Bytes) := by
    rw [← h]
    exact List.mem_map_of_mem hm
  obtain ⟨l, hl, heq⟩ := List.mem_map.mp hmem
  exact ⟨l, hl, heq.symm⟩

/-- A line is over the limit exactly when its sender finds it too large. -/
theorem tooLarge_iff {ms : List (Message Req Resp Ev)} {lines : List Bytes}
    (h : ms.map deps.toVec = lines.map .ok) :
    (∃ l ∈ lines, maxMessageBytes < l.length + 1) ↔
      ∃ m ∈ ms, deps.sendMessage m = .error .tooLarge := by
  have hrefused : ∀ m l, deps.toVec m = .ok l →
      (deps.sendMessage m = .error .tooLarge ↔ maxMessageBytes < l.length + 1) := by
    intro m l hm
    rw [ServerDeps.sendMessage, hm]
    dsimp only
    rw [List.length_append, List.length_singleton]
    split
    case isTrue hover => exact ⟨fun _ => hover, fun _ => rfl⟩
    case isFalse hfits => exact ⟨fun heq => (nomatch heq), fun hover => absurd hover hfits⟩
  constructor
  · rintro ⟨l, hl, hover⟩
    obtain ⟨m, hm, heq⟩ := exists_message h hl
    exact ⟨m, hm, (hrefused m l heq).mpr hover⟩
  · rintro ⟨m, hm, hsend⟩
    obtain ⟨l, hl, heq⟩ := exists_line h hm
    exact ⟨l, hl, (hrefused m l heq).mp hsend⟩

/-- Lists that correspond element by element still do after a map that respects it. -/
theorem map_eq_map_of_corresponding {α β γ δ : Type*} {f : α → γ} {g : β → γ} {f' : α → δ}
    {g' : β → δ} {as : List α} {bs : List β} (h : as.map f = bs.map g)
    (hrespects : ∀ a ∈ as, ∀ b, f a = g b → f' a = g' b) : as.map f' = bs.map g' := by
  induction as generalizing bs with
  | nil =>
      cases bs with
      | nil => rfl
      | cons b bs => exact absurd h.symm (List.cons_ne_nil _ _)
  | cons a as ih =>
      cases bs with
      | nil => exact absurd h (List.cons_ne_nil _ _)
      | cons b bs =>
          rw [List.map_cons, List.map_cons, List.cons.injEq] at h
          have hrest := ih h.2 fun x hx => hrespects x (List.mem_cons_of_mem a hx)
          rw [List.map_cons, List.map_cons, hrest, hrespects a List.mem_cons_self b h.1]

/-- The lines the sender writes are those that fit, with their newlines. -/
theorem map_sendMessage {ms : List (Message Req Resp Ev)} {lines : List Bytes}
    (h : ms.map deps.toVec = lines.map .ok) :
    (deps.sendable ms).map deps.sendMessage =
      ((fitting maxMessageBytes lines).map (· ++ [newline])).map .ok := by
  rw [List.map_map]
  refine map_eq_map_of_corresponding (fitting_eq h) fun m hm l hl => ?_
  have hisok : (deps.sendMessage m).isOk = true :=
    List.mem_takeWhile_imp (p := fun m => (deps.sendMessage m).isOk) hm
  cases hsend : deps.sendMessage m with
  | error e =>
      rw [hsend] at hisok
      exact absurd hisok Bool.false_ne_true
  | ok line =>
      rw [sendMessage_eq hl hsend]
      rfl

/-- What is made of the lines is the messages exactly if each of the messages is read back. -/
theorem map_fromSlice_iff {ms : List (Message Req Resp Ev)} {lines : List Bytes}
    (h : ms.map deps.toVec = lines.map .ok) :
    (lines.map (· ++ [newline])).map deps.fromSlice = ms.map .ok ↔ ∀ m ∈ ms, deps.ReadsBack m := by
  induction ms generalizing lines with
  | nil =>
      cases lines with
      | nil => exact ⟨fun _ m hm => absurd hm List.not_mem_nil, fun _ => rfl⟩
      | cons l lines => exact absurd h.symm (List.cons_ne_nil _ _)
  | cons m ms ih =>
      cases lines with
      | nil => exact absurd h (List.cons_ne_nil _ _)
      | cons l lines =>
          rw [List.map_cons, List.map_cons, List.cons.injEq] at h
          obtain ⟨hm, hms⟩ := h
          -- the line of the message is the one that arrives
          have hhead : deps.fromSlice (l ++ [newline]) = .ok m ↔ deps.ReadsBack m := by
            constructor
            · intro hread bytes hbytes
              rwa [Except.ok.inj (hbytes.symm.trans hm)]
            · exact fun hread => hread l hm
          rw [List.map_cons, List.map_cons, List.map_cons, List.cons.injEq, ih hms, hhead,
            List.forall_mem_cons]

/-- What a reader returns, and what is made of it, after some rounds with chunks. -/
theorem after_map_spec {lines chunks : List Bytes} (hfull : AllFull chunks)
    (hlines : ∀ l ∈ lines, newline ∉ l) (hstream : chunks.flatten = Lines.unlines newline lines)
    {β : Type*} (f : Bytes → β) {r : Reading UInt8} {k : ℕ}
    (hr : r = (Reading.start chunks).after newline maxMessageBytes k) :
    r.buffer.length ≤ maxMessageBytes ∧
      r.lines.map f <+: ((fitting maxMessageBytes lines).map (· ++ [newline])).map f ∧
      (chunks.flatten.length < k →
        r.lines.map f = ((fitting maxMessageBytes lines).map (· ++ [newline])).map f ∧
          (r.stopped = some .tooLarge ↔ ∃ l ∈ lines, maxMessageBytes < l.length + 1)) := by
  subst hr
  obtain ⟨hbuffer, hprefix, hall⟩ := after_spec hfull hlines hstream k
  refine ⟨hbuffer, hprefix.map f, fun hcount => ?_⟩
  obtain ⟨hreturned, hstop⟩ := hall hcount
  exact ⟨congrArg _ hreturned, hstop⟩

/-- **What framing is for**, of a list of messages that arrives in these chunks. The server's reader,
however its future is dropped and made again, returns the lines that the sender lets through, in order;
the client's reader returns their messages, as long as it does not time out. Each returns a beginning
of them at any time, and all of them after more rounds than there are bytes. A line is refused exactly
if its sender refuses the message, and no buffer ever exceeds the limit. If the sender refuses none, what
it lets through is the whole list. -/
structure ServerDeps.Lossless (ms : List (Message Req Resp Ev)) (chunks : List Bytes) : Prop where
  server : ∀ polls : List ServerPoll,
    let r := polls.foldl serverStep (Reading.start chunks)
    r.buffer.length ≤ maxMessageBytes ∧
      r.lines.map .ok <+: (deps.sendable ms).map deps.sendMessage ∧
      (chunks.flatten.length < polls.count .ready →
        r.lines.map .ok = (deps.sendable ms).map deps.sendMessage ∧
          (r.stopped = some .tooLarge ↔ ∃ m ∈ ms, deps.sendMessage m = .error .tooLarge))
  client : ∀ ticks : List ClientTick, .timedOut ∉ ticks →
    let r := ticks.foldl clientStep (Reading.start chunks)
    r.buffer.length ≤ maxMessageBytes ∧
      received deps r <+: (deps.sendable ms).map .ok ∧
      (chunks.flatten.length < ticks.count .ready →
        received deps r = (deps.sendable ms).map .ok ∧
          (r.stopped = some .tooLarge ↔ ∃ m ∈ ms, deps.sendMessage m = .error .tooLarge))
  whole : (∀ m ∈ ms, ∃ line, deps.sendMessage m = .ok line) → deps.sendable ms = ms

/-- **The lines are always those of the sender**: nothing is lost between both ends unless a message
that is sent is not read back from its own line. -/
theorem lossless_iff_readsBack {ms : List (Message Req Resp Ev)} {lines : List Bytes}
    (hms : ms.map deps.toVec = lines.map .ok) (hone : ∀ l ∈ lines, newline ∉ l)
    {chunks : List Bytes} (hfull : AllFull chunks)
    (hstream : chunks.flatten = Lines.unlines newline lines) :
    deps.Lossless ms chunks ↔ ∀ m ∈ deps.sendable ms, deps.ReadsBack m := by
  rw [← map_fromSlice_iff (fitting_eq hms)]
  constructor
  · intro h
    -- enough rounds for everything that has arrived
    let ticks : List ClientTick := List.replicate (chunks.flatten.length + 1) .ready
    have hticks : .timedOut ∉ ticks := fun hmem => by
      exact absurd (List.eq_of_mem_replicate hmem) (by decide)
    have hcount : chunks.flatten.length < ticks.count .ready := by
      rw [List.count_replicate_self]
      exact Nat.lt_succ_self _
    have hspec := after_map_spec hfull hone hstream deps.fromSlice (foldl_clientStep ticks hticks _)
    exact (hspec.2.2 hcount).1.symm.trans ((h.client ticks hticks).2.2 hcount).1
  · intro hread
    refine ⟨fun polls => ?_, fun ticks hticks => ?_, fun hsend => ?_⟩
    · rw [map_sendMessage hms, ← tooLarge_iff hms]
      exact after_map_spec hfull hone hstream _ (foldl_serverStep polls _)
    · rw [← hread, ← tooLarge_iff hms]
      exact after_map_spec hfull hone hstream _ (foldl_clientStep ticks hticks _)
    · refine List.takeWhile_eq_self_iff.mpr fun m hm => ?_
      obtain ⟨line, hline⟩ := hsend m hm
      rw [hline]
      rfl

/-! ## The messages of the daemon and the window -/

section

variable {wire : ServerDeps Wire.Request Wire.Response Wire.Event}

/-- Of the messages on the socket, those with finite gains are the ones that are read back. -/
theorem readsBack_iff (hjson : Wire.Json wire) {m : Wire.Message} {bytes : Bytes}
    (hm : wire.toVec m = .ok bytes) : wire.ReadsBack m ↔ Wire.FiniteGains m := by
  constructor
  · intro hread
    by_contra hgains
    obtain ⟨e, he⟩ := hjson.nullGain m bytes hm hgains
    exact absurd (he.symm.trans (hread bytes hm)) (by simp)
  · exact fun hgains bytes hbytes => hjson.readBack m bytes hbytes hgains

/-- **Messages are framed without loss on both ends exactly if their gains are finite.** This is about
every list of messages that can be written, in any chunks: of those that the sender lets through, no
request and no response may carry a gain that is infinite or no number. -/
theorem framing_lossless (hjson : Wire.Json wire) (ms : List Wire.Message)
    (lines : List Bytes) (hms : ms.map wire.toVec = lines.map .ok) (chunks : List Bytes)
    (hfull : AllFull chunks) (hstream : chunks.flatten = Lines.unlines newline lines) :
    wire.Lossless ms chunks ↔ ∀ m ∈ wire.sendable ms, Wire.FiniteGains m := by
  have hone : ∀ l ∈ lines, newline ∉ l := by
    intro l hl
    obtain ⟨m, -, hm⟩ := exists_message hms hl
    exact hjson.oneLine m l hm
  rw [lossless_iff_readsBack hms hone hfull hstream]
  refine forall₂_congr fun m hm => ?_
  obtain ⟨l, -, hl⟩ := exists_line hms ((List.takeWhile_prefix _).subset hm)
  exact readsBack_iff hjson hl

end

/-! ## Messages as they are written -/

/-- The default document with an infinite gain, as `input_gain = inf` in the file makes it. -/
def infiniteGain : Config :=
  { Config.default with audio := { AudioConfig.default with inputGain := ⟨0x7f800000#32⟩ } }

/-- The line of the response that carries it: the gain is written as `null`. -/
def infiniteGainLine : Bytes :=
  Bytes.utf8 <|
    "\x7b\"kind\":\"response\",\"result\":\"config\",\"config\":\x7b\"role\":\"server\"," ++
    "\"server_name\":\"this-machine\",\"server_address\":null,\"port\":24800," ++
    "\"service_port\":24850,\"sync_port\":24851,\"screens\":[\x7b\"name\":\"this-machine\"," ++
    "\"aliases\":[],\"position\":\x7b\"x\":0,\"y\":0,\"w\":160,\"h\":120\x7d," ++
    "\"monitors\":[]\x7d],\"links\":[],\"options\":\x7b\x7d,\"clipboard_sharing\":true," ++
    "\"autostart\":true,\"binaries\":\x7b\"core\":null\x7d,\"audio\":\x7b\"enabled\":false," ++
    "\"input_device\":null,\"output_device\":null,\"input_gain\":null,\"output_gain\":1.0," ++
    "\"per_peer\":\x7b\x7d,\"signal_port\":24852\x7d\x7d\x7d"

/-- The line of `GetStatus`, as `serde_json` writes it. -/
def getStatusLine : Bytes := Bytes.utf8 "\x7b\"kind\":\"request\",\"op\":\"get_status\"\x7d"

/-- The line of `ConfigChanged`, as `serde_json` writes it. -/
def configChangedLine : Bytes := Bytes.utf8 "\x7b\"kind\":\"event\",\"event\":\"config_changed\"\x7d"

/-- `serde_json` on three messages; the others are not written here. -/
def threeMessages : ServerDeps Wire.Request Wire.Response Wire.Event where
  fromSlice line :=
    if line = getStatusLine ++ [newline] then .ok (.request .getStatus)
    else if line = configChangedLine ++ [newline] then .ok (.event .configChanged)
    else if line = infiniteGainLine ++ [newline] then .error "invalid type: null, expected f32"
    else .error "expected value at line 1 column 1"
  toVec
    | .request .getStatus => .ok getStatusLine
    | .event .configChanged => .ok configChangedLine
    | .response (.config config) =>
        if config.eq infiniteGain then .ok infiniteGainLine else .error "not written"
    | _ => .error "not written"
  debug _ := ""
  isSubscribe
    | .subscribe => true
    | _ => false
  error := .error
  capacity := 1024

/-- What has a line here: two messages without a gain, and one whose gain is infinite. -/
theorem threeMessages_cases {m : Wire.Message} {bytes : Bytes}
    (h : threeMessages.toVec m = .ok bytes) :
    (m = .request .getStatus ∧ bytes = getStatusLine) ∨
      (m = .event .configChanged ∧ bytes = configChangedLine) ∨
      (¬ Wire.FiniteGains m ∧ bytes = infiniteGainLine) := by
  rw [threeMessages] at h
  dsimp only at h
  split at h
  · exact Or.inl ⟨rfl, (Except.ok.inj h).symm⟩
  · exact Or.inr (Or.inl ⟨rfl, (Except.ok.inj h).symm⟩)
  · split at h
    · next config hconfig =>
      refine Or.inr (Or.inr ⟨fun hfinite => ?_, (Except.ok.inj h).symm⟩)
      -- a gain that is `==` to an infinite one is infinite
      have hgain : config.audio.inputGain.eq infiniteGain.audio.inputGain = true := by
        rw [Config.eq, Bool.and_eq_true, AudioConfig.eq] at hconfig
        simp only [Bool.and_eq_true] at hconfig
        exact hconfig.2.1.1.1.2
      have hbits : config.audio.inputGain = infiniteGain.audio.inputGain := by
        rw [F32.eq, Bool.and_eq_true, Bool.or_eq_true, beq_iff_eq] at hgain
        rcases hgain.2 with hbits | hzero
        · rw [← F32.mk.injEq] at hbits
          exact hbits
        · rw [Bool.and_eq_true] at hzero
          exact absurd hzero.2 (by decide)
      have hinput := hfinite _ (List.mem_cons_self (l := [config.audio.outputGain]))
      rw [hbits] at hinput
      exact absurd hinput (by decide)
    · cases h
  · cases h

/-- These lines are as `serde_json` is relied on to write and read them. -/
theorem threeMessages_json : Wire.Json threeMessages := by
  have hlines : newline ∉ getStatusLine ∧ newline ∉ configChangedLine ∧
      newline ∉ infiniteGainLine := by decide +kernel
  have hother : infiniteGainLine ≠ getStatusLine ∧ infiniteGainLine ≠ configChangedLine := by
    decide +kernel
  refine ⟨fun m bytes h => ?_, fun m bytes h hfinite => ?_, fun m bytes h hgains => ?_⟩
  · rcases threeMessages_cases h with ⟨-, hline⟩ | ⟨-, hline⟩ | ⟨-, hline⟩
    · exact hline ▸ hlines.1
    · exact hline ▸ hlines.2.1
    · exact hline ▸ hlines.2.2
  · rcases threeMessages_cases h with ⟨rfl, hline⟩ | ⟨rfl, hline⟩ | ⟨hgains, -⟩
    · rw [hline, threeMessages]
      dsimp only
      rw [if_pos rfl]
    · rw [hline, threeMessages]
      dsimp only
      rw [if_neg (by decide +kernel), if_pos rfl]
    · exact absurd hfinite hgains
  · rcases threeMessages_cases h with ⟨rfl, -⟩ | ⟨rfl, -⟩ | ⟨-, hline⟩
    · exact absurd (by decide) hgains
    · exact absurd (by decide) hgains
    · refine ⟨"invalid type: null, expected f32", ?_⟩
      rw [hline, threeMessages]
      dsimp only
      rw [if_neg fun heq => hother.1 (List.append_cancel_right heq),
        if_neg fun heq => hother.2 (List.append_cancel_right heq), if_pos rfl]

/-- Two messages without a gain, in two chunks that are not theirs. -/
theorem framing_lossless_two :
    threeMessages.Lossless [.request .getStatus, .event .configChanged]
      [Bytes.utf8 "\x7b\"kind\":\"requ", Bytes.utf8 "est\",\"op\":\"get_status\"\x7d\n\x7b\"kind\"" ++
        Bytes.utf8 ":\"event\",\"event\":\"config_changed\"\x7d\n"] := by
  refine (framing_lossless threeMessages_json _ [getStatusLine, configChangedLine] rfl _
    (by decide) (by decide +kernel)).mpr ?_
  decide +kernel

/-- The daemon can write the document and send it. -/
theorem infiniteGain_sent :
    threeMessages.toVec (.response (.config infiniteGain)) = .ok infiniteGainLine ∧
      ∃ line, threeMessages.sendMessage (.response (.config infiniteGain)) = .ok line := by
  have hvec : threeMessages.toVec (.response (.config infiniteGain)) = .ok infiniteGainLine := by
    rw [threeMessages]
    dsimp only
    rw [if_pos (by decide +kernel)]
  refine ⟨hvec, ?_⟩
  rw [ServerDeps.sendMessage, hvec]
  dsimp only
  rw [if_neg (by decide +kernel)]
  exact ⟨_, rfl⟩

/-- **A document with an infinite gain does not arrive**: the window's reader returns an error in its
place, although the line is the daemon's own and well within the limit. -/
theorem infinite_gain_lost :
    ¬ ∀ (deps : ServerDeps Wire.Request Wire.Response Wire.Event) (_ : Wire.Json deps)
      (ms : List Wire.Message) (lines : List Bytes) (_ : ms.map deps.toVec = lines.map .ok)
      (_ : ∀ m ∈ ms, ∃ line, deps.sendMessage m = .ok line) (chunks : List Bytes)
      (_ : AllFull chunks) (_ : chunks.flatten = Lines.unlines newline lines),
        deps.Lossless ms chunks := by
  intro h
  obtain ⟨hvec, hsend⟩ := infiniteGain_sent
  have hline : newline ∉ infiniteGainLine := by decide +kernel
  generalize infiniteGainLine = line at hvec hline
  have hms : [Message.response (.config infiniteGain)].map threeMessages.toVec = [line].map .ok := by
    rw [List.map_singleton, hvec, List.map_singleton]
  have hsent : ∀ m ∈ [Message.response (.config infiniteGain)],
      ∃ line, threeMessages.sendMessage m = .ok line := List.forall_mem_singleton.mpr hsend
  have hfull : AllFull [line ++ [newline]] := by
    simp [AllFull]
  have hstream : [line ++ [newline]].flatten = Lines.unlines newline [line] := by
    simp [Lines.unlines]
  have hlossless := h _ threeMessages_json _ _ hms hsent _ hfull hstream
  have hread := (lossless_iff_readsBack hms (List.forall_mem_singleton.mpr hline) hfull hstream).mp
    hlossless
  rw [hlossless.whole hsent] at hread
  have hgains := (readsBack_iff threeMessages_json hvec).mp (hread _ List.mem_cons_self)
  exact absurd hgains (by decide)

end Ipc

end Synbad
