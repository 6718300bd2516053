import Mathlib.Data.List.DropRight
import Mathlib.Data.String.Basic

/-! # Log lines of the Core

`synbad_ipc::log_parse`: recognising the few lines of the Core's log that carry a signal, after an
optional timestamp and level prefix. Texts are handled as lists of characters, in the order the source
tests them, and functions of the standard library on texts have their documented behaviour: what is
white space is decided by Unicode.

There are three signals with a name in them, a client that has connected, one that has disconnected,
and a switch of the active screen, which are events for subscribers. Three more lines are only asked
for by the supervisor: that the client has found or lost its server, and that the server has started.
The state that the supervisor shows of the Core and the events it broadcasts are declared here as
well, since the parser makes some of them. That the parser accepts exactly a grammar, and which texts
of the daemon itself it would take for a signal, is shown in the modules that build on this one. -/

namespace Synbad

namespace Ipc

/-- What the supervisor shows of the Core, and of its own attempts to keep it running. -/
inductive DaemonState where
  | stopped
  | starting
  | running (pid : ℕ)
  | reconnecting (attempt nextRetrySecs : ℕ)
  | crashed (exitCode : Option Int)
  deriving DecidableEq, Repr

/-- `DaemonState::is_running`: the Core runs or is being started. -/
def DaemonState.isRunning : DaemonState → Bool
  | .running _ => true
  | .starting => true
  | _ => false

/-- The state is `Running` with some pid, so there is a child. -/
def DaemonState.hasChild : DaemonState → Bool
  | .running _ => true
  | _ => false

/-- The events the modelled handlers broadcast to their subscribers. -/
inductive Event where
  | state (state : DaemonState)
  | log (line : String)
  | configChanged
  | peerConnected (name : String)
  | peerDisconnected (name : String)
  | activeScreen (name : String)
  deriving DecidableEq, Repr

end Ipc

namespace LogParse

/-- The Unicode `White_Space` characters, by their numbers. -/
def isWhitespace (c : Char) : Bool :=
  let n := c.toNat
  (9 ≤ n && n ≤ 13) || n == 0x20 || n == 0x85 || n == 0xa0 || n == 0x1680 ||
    (0x2000 ≤ n && n ≤ 0x200a) || n == 0x2028 || n == 0x2029 || n == 0x202f || n == 0x205f ||
    n == 0x3000

/-- `str::trim_start`: the text without the white space at its beginning. -/
def trimStart (s : List Char) : List Char := s.dropWhile isWhitespace

/-- `str::trim`: the text without the white space at both of its ends. -/
def trim (s : List Char) : List Char := (s.dropWhile isWhitespace).rdropWhile isWhitespace

/-- Nothing is trimmed off a text that has no white space at all. -/
theorem trim_eq_self {s : List Char} (h : ∀ c ∈ s, isWhitespace c = false) : trim s = s := by
  have hstart : s.dropWhile isWhitespace = s :=
    List.dropWhile_eq_self_iff.mpr fun hpos => by simp [h _ (List.getElem_mem hpos)]
  rw [trim, hstart, List.rdropWhile_eq_self_iff]
  intro hne
  simp [h _ (List.getLast_mem hne)]

/-- What follows the first occurrence of a character, if there is one. -/
def afterChar (c : Char) : List Char → Option (List Char)
  | [] => none
  | d :: ds => if d == c then some ds else afterChar c ds

/-- `str::strip_prefix`: what follows the prefix, if the text begins with it. -/
def stripPrefix (p : String) (s : List Char) : Option (List Char) := p.toList.isPrefixOf? s

/-- The level prefixes, in the order they are tried. -/
def levelPrefixes : List String :=
  ["NOTE: ", "WARNING: ", "ERROR: ", "FATAL: ", "INFO: ", "DEBUG: ", "DEBUG1: ", "DEBUG2: "]

/-- Drop a leading timestamp, in brackets or shaped like a date, with the white space around it. -/
def stripTimestamp (line : List Char) : List Char :=
  let trimmed := trimStart line
  match stripPrefix "[" trimmed with
  | some rest => ((afterChar ']' rest).map trimStart).getD trimmed
  | none =>
      if (trimmed.take 10).all fun c => c.isDigit || c == '-' then
        ((afterChar ' ' trimmed).map trimStart).getD trimmed
      else trimmed

/-- `strip_log_prefix`: the line without its timestamp and then without its level, if it has them. -/
def stripLogPrefix (line : String) : List Char :=
  let afterTs := stripTimestamp line.toList
  (levelPrefixes.findSome? fun p => stripPrefix p afterTs).getD afterTs

/-- `is_client_server_disconnect`: the line says that the client has lost its server. -/
def isClientServerDisconnect (line : String) : Bool :=
  (stripPrefix "disconnected from server" (stripLogPrefix line)).isSome

/-- `is_client_connected`: the line says that the client has found its server. -/
def isClientConnected (line : String) : Bool :=
  (stripPrefix "connected to server" (stripLogPrefix line)).isSome

/-- `is_core_ready`: the line says that the client is connected or the server has started. -/
def isCoreReady (line : String) : Bool :=
  let body := stripLogPrefix line
  (stripPrefix "connected to server" body).isSome || (stripPrefix "started server" body).isSome

/-- Split at the first double quote: what precedes it and what follows it. -/
def untilQuote (s : List Char) : Option (List Char × List Char) :=
  (afterChar '"' s).map fun rest => (s.takeWhile (· != '"'), rest)

/-- `extract_quoted_after`: the name in quotes between these two texts, at the beginning of the
body. -/
def extractQuotedAfter (body : List Char) (before after : String) : Option (List Char) := do
  let afterPrefix ← stripPrefix before body
  let afterQuote ← stripPrefix "\"" afterPrefix
  let (name, rest) ← untilQuote afterQuote
  let _ ← stripPrefix after rest
  pure name

/-- `extract_switch`: the names of the two screens between which the pointer went. -/
def extractSwitch (body : List Char) : Option (List Char × List Char) := do
  let rest ← stripPrefix "switch from \"" body
  let (source, afterFrom) ← untilQuote rest
  let toBlock ← stripPrefix " to \"" afterFrom
  let (target, _) ← untilQuote toBlock
  pure (source, target)

/-- `log_parse::parse`: the event of a line, the three kinds tried one after the other. -/
def parse (line : String) : Option Ipc.Event :=
  let body := stripLogPrefix line
  match extractQuotedAfter body "client " " has connected" with
  | some name => some (.peerConnected (String.ofList name))
  | none =>
      match extractQuotedAfter body "client " " has disconnected" with
      | some name => some (.peerDisconnected (String.ofList name))
      | none => (extractSwitch body).map fun p => .activeScreen (String.ofList p.2)

/-- A line is only ever read as one of the three signals of the Core. -/
theorem parse_cases {line : String} {e : Ipc.Event} (h : parse line = some e) :
    (∃ name, e = .peerConnected name) ∨ (∃ name, e = .peerDisconnected name) ∨
      ∃ name, e = .activeScreen name := by
  unfold parse at h
  simp only at h
  split at h
  · next name _ => exact Or.inl ⟨_, (Option.some.inj h).symm⟩
  · split at h
    · next name _ => exact Or.inr (Or.inl ⟨_, (Option.some.inj h).symm⟩)
    · obtain ⟨p, -, hp⟩ := Option.map_eq_some_iff.mp h
      exact Or.inr (Or.inr ⟨_, hp.symm⟩)

end LogParse

end Synbad
