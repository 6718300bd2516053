import Mathlib.Data.String.Basic
import Mathlib.Order.Lattice
import Synbad.Lib.DebugText

/-! # The configuration document

The data model of `synbad-config`: the `Config` record with all its sections, the derived `PartialEq`
that the daemon compares documents with, the built-in defaults, and `Config::validate` with its error
texts.

Two of the leaf types compare by something other than identity, and the model keeps that: an `f32`
gain is kept as its bit pattern with IEEE equality (`NaN` is unequal to itself and the two zeros are
equal), and a `PathBuf` compares by components. Everything that is *shared* between machines (`port`,
`screens`, `links`, `options`, `clipboardSharing`) compares by identity.

The results are about the two questions the daemon asks of a document. `valid_iff` says what
`validate` accepts: the machine's own name is a screen, every link joins two different screens, and a
client knows its server. The built-in document is accepted, and documents that are `==` are accepted
alike. Whether an edit concerns the Core is `coreInputsDiffer`, an equality of two views in which the
fields the Core never sees have a fixed value. -/

namespace Synbad

/-! ## Leaf types -/

/-- An `f32`, kept as its IEEE-754 bit pattern: no operation of the model computes with it, but it is
compared, and asked whether it is finite. -/
structure F32 where
  bits : BitVec 32
  deriving Repr

namespace F32

/-- The magnitude bits of an `f32`, its sign dropped. -/
def magnitude (x : F32) : Nat := x.bits.toNat % 2 ^ 31

/-- The number is no number: all its exponent bits are set and its mantissa is not zero. -/
def isNaN (x : F32) : Bool := 0x7f800000 < x.magnitude

/-- The `==` of `f32`: `NaN` equals nothing, the two zeros equal each other. -/
def eq (x y : F32) : Bool :=
  !x.isNaN && !y.isNaN && (x.bits == y.bits || (x.magnitude == 0 && y.magnitude == 0))

/-- The gain `1.0`, at which nothing is changed. -/
def one : F32 := ⟨0x3f800000#32⟩

end F32

/-- A path of the file system, kept as its text. Two different texts may be one path. -/
structure PathBuf where
  text : String
  deriving Repr

namespace PathBuf

/-- The components a `PathBuf` is compared by: whether it is rooted, then its names. Repeated and
trailing separators vanish, and so does `.` anywhere but at the front of a relative path. -/
def components (p : PathBuf) : Bool × List (List Char) :=
  let cs := p.text.toList
  let rooted := cs.head? == some '/'
  let names := (cs.splitOn '/').filter (· ≠ [])
  match names with
  | ['.'] :: rest => (rooted, (if rooted then [] else [['.']]) ++ rest.filter (· ≠ ['.']))
  | names => (rooted, names.filter (· ≠ ['.']))

/-- The `==` of `PathBuf`: both paths are rooted or neither is, and their components agree one by
one. -/
def eq (p q : PathBuf) : Bool := p.components == q.components

end PathBuf

/-- A `BTreeMap`: its entries in strictly increasing key order. -/
structure BTreeMap (κ υ : Type) [LT κ] where
  entries : List (κ × υ)
  sorted : (entries.map Prod.fst).Pairwise (· < ·)
  deriving DecidableEq

namespace BTreeMap

variable {κ υ : Type} [LT κ]

/-- The map with no entry, which is in order. -/
def empty : BTreeMap κ υ := ⟨[], .nil⟩

/-- The `==` of a map whose values compare by `eqv`: same keys, values pairwise equal. -/
def eqBy [BEq κ] (eqv : υ → υ → Bool) (m n : BTreeMap κ υ) : Bool :=
  m.entries.length == n.entries.length &&
    (m.entries.zip n.entries).all fun p => p.1.1 == p.2.1 && eqv p.1.2 p.2.2

end BTreeMap

/-! ## The document -/

/-- The role a machine plays: the server shares its keyboard and mouse, a client takes them. -/
inductive NodeRole where
  | server
  | client
  deriving DecidableEq, Repr

/-- One physical display attached to a screen (`i32` origin, `u32` size). -/
structure MonitorInfo where
  x : Int
  y : Int
  w : Nat
  h : Nat
  primary : Bool
  deriving DecidableEq, Repr

/-- Where a screen stands on the canvas of the layout, and how large it is drawn there. -/
structure GridPosition where
  x : Int
  y : Int
  w : Nat
  h : Nat
  deriving DecidableEq, Repr

/-- A participating machine: the name the Core knows it by, its other names, its place on the canvas
and the displays attached to it. -/
structure Screen where
  name : String
  aliases : List String
  position : GridPosition
  monitors : List MonitorInfo
  deriving DecidableEq, Repr

/-- The side of a screen a link leaves from. -/
inductive Side where
  | left
  | right
  | up
  | down
  deriving DecidableEq, Repr

/-- A directional adjacency between two screens: the pointer leaves `from` by this side and arrives on
`to`. -/
structure Link where
  «from» : String
  side : Side
  «to» : String
  deriving DecidableEq, Repr

/-- An override of the Core's executable, which is used in place of a downloaded one if it is set. -/
structure BinaryPaths where
  core : Option PathBuf
  deriving Repr

/-- How audio is routed to and from one peer, where it differs from what holds for all. -/
structure PeerAudioRouting where
  enabled : Bool
  sendToPeer : Bool
  receiveFromPeer : Bool
  deriving DecidableEq, Repr

/-- The section of the LAN audio bridge: whether it is on, its devices and gains, what differs for
single peers, and the port on which it is reached. -/
structure AudioConfig where
  enabled : Bool
  inputDevice : Option String
  outputDevice : Option String
  inputGain : F32
  outputGain : F32
  perPeer : BTreeMap String PeerAudioRouting
  signalPort : Nat

/-- The configuration document as a whole. The machines share `port`, `screens`, `links`, `options`
and `clipboardSharing` between them; the other fields are a machine's own. -/
structure Config where
  role : NodeRole
  serverName : String
  serverAddress : Option String
  port : Nat
  servicePort : Nat
  syncPort : Nat
  screens : List Screen
  links : List Link
  options : BTreeMap String String
  clipboardSharing : Bool
  autostart : Bool
  binaries : BinaryPaths
  audio : AudioConfig

/-! ## Equality of documents -/

/-- The derived `PartialEq` of `BinaryPaths`: both have no override, or both have one and the paths
are equal. -/
def BinaryPaths.eq (a b : BinaryPaths) : Bool :=
  match a.core, b.core with
  | none, none => true
  | some p, some q => p.eq q
  | _, _ => false

/-- The derived `PartialEq` of `AudioConfig`, field by field; the gains compare as floating-point
numbers, so a section with a `NaN` is not equal to itself. -/
def AudioConfig.eq (a b : AudioConfig) : Bool :=
  a.enabled == b.enabled && a.inputDevice == b.inputDevice && a.outputDevice == b.outputDevice &&
    a.inputGain.eq b.inputGain && a.outputGain.eq b.outputGain &&
    a.perPeer.eqBy (· == ·) b.perPeer && a.signalPort == b.signalPort

/-- The derived `PartialEq` of `Config`, field by field, with the equality of each field's own
type. -/
def Config.eq (a b : Config) : Bool :=
  a.role == b.role && a.serverName == b.serverName && a.serverAddress == b.serverAddress &&
    a.port == b.port && a.servicePort == b.servicePort && a.syncPort == b.syncPort &&
    a.screens == b.screens && a.links == b.links && decide (a.options = b.options) &&
    a.clipboardSharing == b.clipboardSharing && a.autostart == b.autostart &&
    a.binaries.eq b.binaries && a.audio.eq b.audio

/-- Documents that are `==` carry the same value in every field that compares by identity. -/
theorem Config.eq_fields {a b : Config} (h : a.eq b = true) :
    a.role = b.role ∧ a.serverName = b.serverName ∧ a.serverAddress = b.serverAddress ∧
      a.port = b.port ∧ a.screens = b.screens ∧ a.links = b.links ∧ a.options = b.options ∧
      a.clipboardSharing = b.clipboardSharing := by
  simp only [Config.eq, Bool.and_eq_true, beq_iff_eq, decide_eq_true_eq] at h
  obtain ⟨⟨⟨⟨⟨⟨⟨⟨⟨⟨⟨⟨hr, hn⟩, ha⟩, hp⟩, -⟩, -⟩, hs⟩, hl⟩, ho⟩, hc⟩, -⟩, -⟩, -⟩ := h
  exact ⟨hr, hn, ha, hp, hs, hl, ho, hc⟩

/-- Neither gain is `NaN`, so that the section is equal to itself. -/
def AudioConfig.Numeric (a : AudioConfig) : Prop :=
  a.inputGain.isNaN = false ∧ a.outputGain.isNaN = false

/-- A document with numeric gains is `==` to itself. -/
theorem Config.eq_self {c : Config} (h : c.audio.Numeric) : c.eq c = true := by
  obtain ⟨hin, hout⟩ := h
  have hcore : c.binaries.eq c.binaries = true := by
    unfold BinaryPaths.eq
    cases c.binaries.core with
    | none => rfl
    | some p => simp [PathBuf.eq]
  have hpeers : c.audio.perPeer.eqBy (· == ·) c.audio.perPeer = true := by
    simp only [BTreeMap.eqBy, beq_self_eq_true, Bool.true_and, List.all_eq_true]
    intro p hp
    rw [List.zip_eq_zipWith, List.zipWith_self] at hp
    obtain ⟨e, -, rfl⟩ := List.mem_map.mp hp
    simp
  simp [Config.eq, AudioConfig.eq, F32.eq, hin, hout, hcore, hpeers]

/-- A document that is `==` to any other has numeric gains. -/
theorem Config.numeric_of_eq {a b : Config} (h : a.eq b = true) : a.audio.Numeric := by
  simp only [Config.eq, AudioConfig.eq, F32.eq, Bool.and_eq_true, Bool.not_eq_true'] at h
  obtain ⟨-, ⟨⟨⟨-, ⟨hin, -⟩, -⟩, ⟨hout, -⟩, -⟩, -⟩, -⟩ := h
  exact ⟨hin, hout⟩

/-! ## Defaults -/

/-- `AudioConfig::default`: the bridge is off, with the system's devices, unchanged gains and the
default port. -/
def AudioConfig.default : AudioConfig where
  enabled := false
  inputDevice := none
  outputDevice := none
  inputGain := F32.one
  outputGain := F32.one
  perPeer := BTreeMap.empty
  signalPort := 24852

/-- `Config::default`: a server with one screen of its own name. -/
def Config.default : Config where
  role := .server
  serverName := "this-machine"
  serverAddress := none
  port := 24800
  servicePort := 24850
  syncPort := 24851
  screens := [⟨"this-machine", [], ⟨0, 0, 160, 120⟩, []⟩]
  links := []
  options := BTreeMap.empty
  clipboardSharing := true
  autostart := true
  binaries := ⟨none⟩
  audio := AudioConfig.default

/-! ## Validation -/

/-- What `Config::validate` reports, with the name that is at fault. -/
inductive Invalid where
  | serverNameNotAScreen (serverName : String)
  | linkFromNotAScreen (name : String)
  | linkToNotAScreen (name : String)
  | linkSelfLoop (name : String)
  | clientWithoutAddress
  deriving DecidableEq, Repr

/-- The text of `Error::Invalid`; names are printed in the quoted form of `{:?}`. -/
def Invalid.message (unicode : UnicodeTables) : Invalid → String
  | .serverNameNotAScreen n => "server_name " ++ debugStr unicode n ++ " does not match any screen"
  | .linkFromNotAScreen n => "link.from " ++ debugStr unicode n ++ " is not a screen"
  | .linkToNotAScreen n => "link.to " ++ debugStr unicode n ++ " is not a screen"
  | .linkSelfLoop n => "link self-loop on " ++ debugStr unicode n
  | .clientWithoutAddress => "client role requires `server_address`"

namespace Config

/-- Some screen of the layout bears this name. An alias does not count. -/
def hasScreen (screens : List Screen) (name : String) : Bool := screens.any fun s => s.name == name

/-- The loop of `validate` over the links: the first offending link is reported. -/
def validateLinks (screens : List Screen) : List Link → Except Invalid Unit
  | [] => .ok ()
  | l :: ls =>
      if !hasScreen screens l.from then .error (.linkFromNotAScreen l.from)
      else if !hasScreen screens l.to then .error (.linkToNotAScreen l.to)
      else if l.from == l.to then .error (.linkSelfLoop l.from)
      else validateLinks screens ls

/-- `Config::validate`: the machine's own name first, then the links in their order, then the address
of a client. The first fault is the one reported. -/
def validate (c : Config) : Except Invalid Unit :=
  if c.screens.all fun s => s.name != c.serverName then
    .error (.serverNameNotAScreen c.serverName)
  else
    match validateLinks c.screens c.links with
    | .error e => .error e
    | .ok () =>
        if c.role == .client && c.serverAddress.isNone then .error .clientWithoutAddress else .ok ()

/-- The document is accepted by `validate`. -/
def Valid (c : Config) : Prop := c.validate = .ok ()

/-- Whether a document is valid can be computed, as `validate` does. -/
instance (c : Config) : Decidable c.Valid :=
  match h : c.validate with
  | .ok () => isTrue h
  | .error _ => isFalse (by simp [Valid, h])

/-- A link a layout admits: both ends are screens and they differ. -/
def LinkOk (screens : List Screen) (l : Link) : Prop :=
  hasScreen screens l.from = true ∧ hasScreen screens l.to = true ∧ l.from ≠ l.to

/-- The link loop succeeds exactly when every link is admissible. -/
theorem validateLinks_eq_ok {screens : List Screen} {ls : List Link} :
    validateLinks screens ls = .ok () ↔ ∀ l ∈ ls, LinkOk screens l := by
  induction ls with
  | nil => simp [validateLinks]
  | cons l ls ih =>
      rw [validateLinks, List.forall_mem_cons, ← ih, LinkOk]
      by_cases hf : hasScreen screens l.from = true
      · by_cases ht : hasScreen screens l.to = true
        · by_cases hl : l.from = l.to <;> simp [hf, ht, hl]
        · simp [hf, ht]
      · simp [hf]

/-- **What `validate` accepts**: the machine's own name is a screen, every link is admissible, and
a client knows its server. -/
theorem valid_iff {c : Config} :
    c.Valid ↔ hasScreen c.screens c.serverName = true ∧ (∀ l ∈ c.links, LinkOk c.screens l) ∧
      (c.role = .client → c.serverAddress.isSome = true) := by
  have hname : (c.screens.all fun s => s.name != c.serverName) = true ↔
      ¬ hasScreen c.screens c.serverName = true := by
    simp [hasScreen]
  rw [Valid, validate, ← validateLinks_eq_ok]
  by_cases hs : hasScreen c.screens c.serverName = true
  · rw [if_neg (by rw [hname]; simp [hs])]
    cases hl : validateLinks c.screens c.links with
    | error e => simp
    | ok u => cases c.role <;> cases c.serverAddress <;> simp [hs]
  · rw [if_pos (hname.mpr hs)]
    simp [hs]

/-- The built-in document is accepted, so a daemon that finds no file begins with a valid document. -/
theorem valid_default : Config.default.Valid := by decide

/-- Acceptance reads only the layout and the machine's own role, name and server address. -/
theorem valid_congr {a b : Config} (hr : a.role = b.role) (hn : a.serverName = b.serverName)
    (ha : a.serverAddress = b.serverAddress) (hs : a.screens = b.screens)
    (hl : a.links = b.links) : a.Valid ↔ b.Valid := by
  rw [valid_iff, valid_iff, hr, hn, ha, hs, hl]

/-- Documents that compare as equal are accepted alike: `validate` looks at nothing that `==`
overlooks. -/
theorem valid_of_eq {a b : Config} (h : a.eq b = true) : a.Valid ↔ b.Valid := by
  obtain ⟨hr, hn, ha, -, hs, hl, -⟩ := eq_fields h
  exact valid_congr hr hn ha hs hl

/-! ## What the Core consumes -/

/-- The document with every field the Core never sees reset to a fixed value. -/
def coreView (c : Config) : Config :=
  { c with servicePort := 0, syncPort := 0, audio := AudioConfig.default, autostart := true }

/-- `Config::core_inputs_differ`: the documents differ once the fields the Core never sees are blanked
out in both. -/
def coreInputsDiffer (c other : Config) : Bool := !(c.coreView.eq other.coreView)

end Config

end Synbad
