import Synbad.Config.Basic

/-! # What the Core is given

The pure functions that turn a `Config` into what the supervised Core reads: the target address of a
client, the generated screen layout and settings files, and the program with its arguments.

A client's address is taken apart only to find out whether it already has a port. That is decided by
whether it parses as an IP address, so the parser of the standard library is written out here, with
its limits on digits, its leading zeros and its embedded IPv4 addresses. The layout file lists every
link together with its reverse, grouped by the screen the edge leaves, with the groups in the order of
those screens' names. The command line depends on how the release is laid out. That an accepted
document always has one (`buildCommand_ok`) is what lets the daemon treat a failure there as a failure
of the document. -/

namespace Synbad

/-! ## Addresses -/

namespace IpAddr

/-- The value of a digit in a radix up to sixteen. -/
def digit? (radix : ℕ) (c : Char) : Option ℕ :=
  let n := c.toNat
  let d :=
    if 48 ≤ n && n ≤ 57 then some (n - 48)
    else if 97 ≤ n && n ≤ 102 then some (n - 87)
    else if 65 ≤ n && n ≤ 70 then some (n - 55)
    else none
  d.bind fun d => if d < radix then some d else none

/-- Read a number of at most `maxDigits` digits and at most `bound`; what remains. -/
def readNumber (radix maxDigits bound : ℕ) (allowZeroPrefix : Bool) (s : List Char) :
    Option (List Char) :=
  let digits := s.takeWhile fun c => (digit? radix c).isSome
  let value := digits.foldl (fun n c => n * radix + (digit? radix c).getD 0) 0
  if digits.length == 0 || maxDigits < digits.length || bound < value then none
  else if !allowZeroPrefix && digits.head? == some '0' && 1 < digits.length then none
  else some (s.drop digits.length)

/-- Read an item with a separator in front, which the first item does not have. -/
def readSeparator (sep : Char) (index : ℕ) (inner : List Char → Option (List Char))
    (s : List Char) : Option (List Char) :=
  if index == 0 then inner s
  else
    match s with
    | c :: rest => if c == sep then inner rest else none
    | [] => none

/-- Read a dotted IPv4 address: four numbers up to 255 of at most three digits, without leading zeros;
what remains. -/
def readV4 (s : List Char) : Option (List Char) :=
  [0, 1, 2, 3].foldlM (fun s i => readSeparator '.' i (readNumber 10 3 255 false) s) s

/-- Read up to `limit` groups of an IPv6 address from group `i` on: the groups read, whether the
last two were an embedded IPv4 address, and what remains. -/
def readGroups (limit : ℕ) : ℕ → ℕ → List Char → ℕ × Bool × List Char
  | 0, i, s => (i, false, s)
  | fuel + 1, i, s =>
      if i < limit then
        match if i + 1 < limit then readSeparator ':' i readV4 s else none with
        | some rest => (i + 2, true, rest)
        | none =>
            match readSeparator ':' i (readNumber 16 4 0xffff true) s with
            | some rest => readGroups limit fuel (i + 1) rest
            | none => (i, false, s)
      else (i, false, s)

/-- Read an IPv6 address: eight groups, or fewer on both sides of a `::`; what remains. An embedded
IPv4 address may only come last. -/
def readV6 (s : List Char) : Option (List Char) :=
  let (headSize, headV4, rest) := readGroups 8 8 0 s
  if headSize == 8 then some rest
  else if headV4 then none
  else
    match rest with
    | ':' :: ':' :: rest =>
        let limit := 8 - (headSize + 1)
        some (readGroups limit limit 0 rest).2.2
    | _ => none

/-- `str::parse::<IpAddr>` succeeds: the whole text is an IPv4 or an IPv6 address. -/
def isIpAddr (s : List Char) : Bool :=
  match readV4 s with
  | some rest => rest.isEmpty
  | none => ((readV6 s).map List.isEmpty).getD false

end IpAddr

/-- `host_port`: the address with the port behind it. An IPv6 literal without brackets gets them, as
its colons would hide the port. -/
def hostPort (host : String) (port : ℕ) : String :=
  let cs := host.toList
  if cs.contains ':' && cs.head? != some '[' then "[" ++ host ++ "]:" ++ toString port
  else host ++ ":" ++ toString port

namespace Config

/-- `Config::remote_address`: the server's address with the document's port, unless it names a port of
its own. -/
def remoteAddress (c : Config) : Option String :=
  c.serverAddress.map fun address =>
    let cs := address.toList
    if IpAddr.isIpAddr cs || !cs.contains ':' ||
        (cs.head? == some '[' && cs.getLast? == some ']') then hostPort address c.port
    else address

/-- A client that validates has an address to dial. -/
theorem remoteAddress_isSome {c : Config} (h : c.serverAddress.isSome = true) :
    c.remoteAddress.isSome = true := by
  rw [remoteAddress, Option.isSome_map]
  exact h

end Config

/-! ## Generated files -/

/-- `Side::opposite`: the side at which the pointer arrives that leaves by this one. -/
def Side.opposite : Side → Side
  | .left => .right
  | .right => .left
  | .up => .down
  | .down => .up

/-- `Side::as_synergy`: the word that stands for a side in the generated layout. -/
def Side.asSynergy : Side → String
  | .left => "left"
  | .right => "right"
  | .up => "up"
  | .down => "down"

namespace Config

/-- One line of a generated file, with the line break that ends it. -/
def writeln (line : String) : String := line ++ "\n"

/-- Append an edge to the group of its source screen, keeping the groups in key order. -/
def pushEdge (source : String) (edge : Side × String) :
    List (String × List (Side × String)) → List (String × List (Side × String))
  | [] => [(source, [edge])]
  | (key, edges) :: rest =>
      if source == key then (key, edges ++ [edge]) :: rest
      else if source < key then (source, [edge]) :: (key, edges) :: rest
      else (key, edges) :: pushEdge source edge rest

/-- All edges of the layout by source screen: each link and its reverse. -/
def edgesByFrom (links : List Link) : List (String × List (Side × String)) :=
  links.foldl
    (fun groups l =>
      pushEdge l.to (l.side.opposite, l.from) (pushEdge l.from (l.side, l.to) groups))
    []

/-- `Config::generate_synergy_conf`: the layout file, with its four sections in this order. Those for
aliases, links and options are left out where they would be empty. -/
def generateSynergyConf (c : Config) : String :=
  let banner :=
    writeln "# Generated by Synbad. DO NOT EDIT — regenerated from config.toml." ++ writeln ""
  let screens :=
    writeln "section: screens" ++ String.join (c.screens.map fun s => writeln ("\t" ++ s.name ++ ":")) ++
      writeln "end" ++ writeln ""
  let aliases :=
    if c.screens.any fun s => !s.aliases.isEmpty then
      writeln "section: aliases" ++
        String.join (c.screens.map fun s =>
          if s.aliases.isEmpty then ""
          else writeln ("\t" ++ s.name ++ ":") ++
            String.join (s.aliases.map fun a => writeln ("\t\t" ++ a))) ++
        writeln "end" ++ writeln ""
    else ""
  let links :=
    if c.links.isEmpty then ""
    else
      writeln "section: links" ++
        String.join ((edgesByFrom c.links).map fun group =>
          writeln ("\t" ++ group.1 ++ ":") ++
            String.join (group.2.map fun e =>
              writeln ("\t\t" ++ e.1.asSynergy ++ "(0,100) = " ++ e.2 ++ "(0,100)"))) ++
        writeln "end" ++ writeln ""
  let emitClipboard := !c.clipboardSharing
  let options :=
    if !c.options.entries.isEmpty || emitClipboard then
      writeln "section: options" ++
        (if emitClipboard then writeln "\tclipboardSharing = false" else "") ++
        String.join (c.options.entries.map fun kv => writeln ("\t" ++ kv.1 ++ " = " ++ kv.2)) ++
        writeln "end"
    else ""
  banner ++ screens ++ aliases ++ links ++ options

/-- `Config::generate_deskflow_settings`: the settings file, with the role, the machine's name and the
port, and then what the role needs: a client the address of its server, a server the path of the
layout file. -/
def generateDeskflowSettings (c : Config) (screenConfPath : PathBuf) : String :=
  let coreMode :=
    match c.role with
    | .client => "1"
    | .server => "2"
  let core :=
    writeln "; Generated by Synbad. DO NOT EDIT — regenerated from config.toml." ++ writeln "" ++
      writeln "[core]" ++ writeln ("coreMode=" ++ coreMode) ++
      writeln ("computerName=" ++ c.serverName) ++ writeln ("port=" ++ toString c.port) ++
      writeln "processMode=1" ++ writeln ""
  match c.role with
  | .client =>
      core ++ writeln "[client]" ++
        ((c.remoteAddress.map fun addr => writeln ("remoteHost=" ++ addr)).getD "")
  | .server =>
      core ++ writeln "[server]" ++ writeln "externalConfig=true" ++
        writeln ("externalConfigFile=" ++ screenConfPath.text)

end Config

/-! ## The command line -/

/-- Where the executables of a release are: one file for both roles, or one for each. -/
inductive CoreLayout where
  | unified (path : PathBuf)
  | splitLegacy (server client : PathBuf)

/-- A Core release that has been resolved to files on this machine. -/
structure ResolvedCore where
  layout : CoreLayout

/-- `build_command`: the program and its arguments, from the release's layout. -/
def buildCommand (resolved : ResolvedCore) (config : Config) (confPath settingsPath : PathBuf) :
    Except String (PathBuf × List String) :=
  match resolved.layout, config.role with
  | .unified path, role =>
      let mode :=
        match role with
        | .server => "server"
        | .client => "client"
      .ok (path, [mode, "-s", settingsPath.text])
  | .splitLegacy server _, .server =>
      .ok (server, ["-f", "-1", "-n", config.serverName, "-a", ":" ++ toString config.port, "-c",
        confPath.text])
  | .splitLegacy _ client, .client =>
      match config.remoteAddress with
      | none => .error "client role requires server_address"
      | some addr => .ok (client, ["-f", "-1", "-n", config.serverName, addr])

/-- **An accepted document always yields a command line**: `build_command` fails only for a client
that has no address, which `validate` refuses. -/
theorem buildCommand_ok {config : Config} (h : config.Valid) (resolved : ResolvedCore)
    (confPath settingsPath : PathBuf) :
    ∃ program args, buildCommand resolved config confPath settingsPath = .ok (program, args) := by
  obtain ⟨-, -, hclient⟩ := Config.valid_iff.mp h
  rw [buildCommand]
  cases hlayout : resolved.layout with
  | unified path => exact ⟨_, _, rfl⟩
  | splitLegacy server client =>
      cases hrole : config.role with
      | server => exact ⟨_, _, rfl⟩
      | client =>
          obtain ⟨addr, haddr⟩ :=
            Option.isSome_iff_exists.mp (Config.remoteAddress_isSome (hclient hrole))
          rw [haddr]
          exact ⟨_, _, rfl⟩

end Synbad
