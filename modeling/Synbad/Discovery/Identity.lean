import Synbad.Crypto.Completion
import Synbad.Discovery.Pairing
import Synbad.Ipc.LogParse
import Synbad.Lib.Run

/-! # The identity of a machine

`synbad-discovery/src/identity.rs`: the machine id and the key pair are made by the first launch of
the daemon and read by every later one. A file is written in place, so a launch that is cut short
leaves a part of it, and there is nothing that repairs it. Launches follow one another, as the daemon
binds its socket first; a launch may end at any point.

Two results, over every sequence of launches. An identity that is there stays (`identity_stable`):
`Sound` says that what a launch goes by is what the disk holds, and `Settled` that nobody makes
another one, but for a launch that cannot tell whether there is a key. And a first launch that is cut
short while the id is written leaves a machine that never comes up again (`torn_for_good`), because no
part of an id reads as one. The library of the ids is a parameter, and a section of its own shows that
the forms it documents have what is asked of it. -/

namespace Synbad

open Bytes (Arr hexEncode hexPairs utf8)

/-! ## The machine id -/

/-- `Uuid`, as its bytes, of which there are sixteen. -/
abbrev Uuid := Arr 16

/-- The library of the ids, with what it documents: an id is written in 36 characters, hexadecimal digits
in five groups with hyphens in between, and is read back from there; read as an id is also the form of
32 digits without hyphens, and otherwise nothing that is shorter than what is written. -/
structure UuidFormat where
  /-- `Uuid::to_string`: the text that is written to `machine-id` and named in every message. -/
  text : Uuid → List Char
  /-- `Uuid::parse_str`: any of the forms the library reads, and nothing for other texts. -/
  parseStr : List Char → Option Uuid
  length_text : ∀ id, (text id).length = 36
  plain_text : ∀ id, Bytes.Plain (String.ofList (text id))
  hyphen_text : ∀ id, (text id)[8]? = some '-'
  parseStr_text : ∀ id, parseStr (text id) = some id
  parseStr_some : ∀ cs id, parseStr cs = some id → (cs.length = 32 ∧ '-' ∉ cs) ∨ 36 ≤ cs.length

/-- The libraries that an identity is made and read with. -/
structure IdentityDeps where
  ops : Primitives
  uuids : UuidFormat

/-! ## The files -/

/-- The paths an error may be about, all of them in one directory. -/
inductive IdentityPath where
  | dir
  | machineId
  | secret
  | publicKey
  deriving DecidableEq, Repr

/-- A path's text, as an error has it. -/
def IdentityPath.text (dir : String) : IdentityPath → String
  | .dir => dir
  | .machineId => dir ++ "/machine-id"
  | .secret => dir ++ "/ed25519.secret"
  | .publicKey => dir ++ "/ed25519.public"

/-- `IdentityError`: an operation has failed, or a file does not hold what it should. -/
inductive IdentityError where
  | io (path : IdentityPath) (source : String)
  | badMachineId (path : IdentityPath)
  | badKeyLength (path : IdentityPath)
  deriving DecidableEq, Repr

/-- The text of an error, which the daemon ends with. -/
def IdentityError.text (dir : String) : IdentityError → String
  | .io path source => "io error at " ++ path.text dir ++ ": " ++ source
  | .badMachineId path => "invalid machine-id at " ++ path.text dir
  | .badKeyLength path => "ed25519 key file at " ++ path.text dir ++ " is the wrong size"

/-- `Identity`: what the daemon goes by and shows to its peers. -/
structure Identity where
  machineId : Uuid
  publicKey : Arr 32
  secretKey : Arr 32
  fingerprint : String

/-- The identity with this id and this key; the public key and the fingerprint follow from the key. -/
def Identity.of (ops : Primitives) (id : Uuid) (secret : Arr 32) : Identity where
  machineId := id
  publicKey := ops.verifyingKey secret
  secretKey := secret
  fingerprint := fingerprintFor ops (ops.verifyingKey secret)

/-- What the files hold, each if it is there. -/
structure IdentityDir where
  machineId : Option Bytes
  secret : Option Bytes
  publicKey : Option Bytes

/-- `fs::read_to_string`, of what has been read: bytes that are no UTF-8 are an error. -/
def readToString (bytes : Bytes) : Option String := String.fromUTF8? ⟨bytes.toArray⟩

/-- The id in the bytes of `machine-id`, blanks around it apart. -/
def readMachineId (uuids : UuidFormat) (bytes : Bytes) : Except IdentityError Uuid :=
  match readToString bytes with
  | none => .error (.io .machineId "stream did not contain valid UTF-8")
  | some s => orError (.badMachineId .machineId) (uuids.parseStr (LogParse.trim s.toList))

/-! ## A launch -/

/-- Where a launch stands in `load_or_create`: one stage for each operation that may fail. -/
inductive IdentityStage where
  | idle
  | creatingDir
  | readingId
  | creatingId (id : Uuid)
  /-- `machine-id` is open and empty, and the id is still to be written. -/
  | writingId (id : Uuid)
  | lookingForSecret (id : Uuid)
  | readingSecret (id : Uuid)
  | creatingSecret (id : Uuid) (secret : Arr 32)
  | writingSecret (id : Uuid) (secret : Arr 32)
  /-- The public key is to be written; `cached` if that may fail. -/
  | creatingPublic (cached : Bool) (id : Uuid) (secret : Arr 32)
  | writingPublic (cached : Bool) (id : Uuid) (secret : Arr 32)
  | loaded (identity : Identity)
  | failed (e : IdentityError)

/-- How the next operation goes: its error if it fails, how much a write that fails has written, and the
values that are drawn. -/
structure IdentityOp where
  fault : Option String
  written : ℕ
  uuid : Uuid
  secret : Arr 32

/-- The operation succeeds, and these are the values that are drawn if there are any to draw. -/
def IdentityOp.fine (uuid : Uuid) (secret : Arr 32) : IdentityOp := ⟨none, 0, uuid, secret⟩

/-- What happens next, to the launch or to the files. -/
inductive IdentityInput where
  /-- A launch starts, and the one before has ended wherever it was. -/
  | launch
  | op (o : IdentityOp)
  /-- Someone puts another public key there, or removes it. -/
  | publicKey (bytes : Option Bytes)

/-- The files, with the launch that is at them: the one of the daemon that holds the socket. -/
structure IdentityHost where
  dir : IdentityDir
  stage : IdentityStage

namespace IdentityHost

variable (deps : IdentityDeps) (h : IdentityHost)

/-- What `write_all` makes of an empty file: all of it, or what it has written when it fails. -/
def written (bytes : Bytes) (o : IdentityOp) : Bytes :=
  match o.fault with
  | some _ => bytes.take o.written
  | none => bytes

/-- The launch goes on to a stage, or ends with an error. -/
def proceed (path : IdentityPath) (o : IdentityOp) (next : IdentityStage) : IdentityStage :=
  match o.fault with
  | some e => .failed (.io path e)
  | none => next

/-- The next operation of the launch; a launch that has ended has none. -/
def operate (o : IdentityOp) : IdentityHost :=
  match h.stage with
  | .creatingDir => { h with stage := proceed .dir o .readingId }
  | .readingId =>
      { h with stage := proceed .machineId o <|
          match h.dir.machineId with
          | none => .creatingId o.uuid
          | some bytes =>
              match readMachineId deps.uuids bytes with
              | .error e => .failed e
              | .ok id => .lookingForSecret id }
  | .creatingId id =>
      match o.fault with
      | some e => { h with stage := .failed (.io .machineId e) }
      | none => ⟨{ h.dir with machineId := some [] }, .writingId id⟩
  | .writingId id =>
      ⟨{ h.dir with machineId := some (written (utf8 (String.ofList (deps.uuids.text id))) o) },
        proceed .machineId o (.lookingForSecret id)⟩
  | .lookingForSecret id =>
      -- `exists` is also false if it cannot tell
      if o.fault = none ∧ h.dir.secret ≠ none then { h with stage := .readingSecret id }
      else { h with stage := .creatingSecret id o.secret }
  | .readingSecret id =>
      { h with stage := proceed .secret o <|
          match h.dir.secret with
          | none => .failed (.io .secret "No such file or directory (os error 2)")
          | some bytes =>
              match Arr.ofBytes 32 bytes with
              | none => .failed (.badKeyLength .secret)
              | some secret => .creatingPublic true id secret }
  | .creatingSecret id secret =>
      match o.fault with
      | some e => { h with stage := .failed (.io .secret e) }
      | none => ⟨{ h.dir with secret := some [] }, .writingSecret id secret⟩
  | .writingSecret id secret =>
      ⟨{ h.dir with secret := some (written secret.val o) },
        proceed .secret o (.creatingPublic false id secret)⟩
  | .creatingPublic cached id secret =>
      match o.fault with
      | some e =>
          { h with stage := if cached then .loaded (.of deps.ops id secret) else .failed (.io .publicKey e) }
      | none => ⟨{ h.dir with publicKey := some [] }, .writingPublic cached id secret⟩
  | .writingPublic cached id secret =>
      ⟨{ h.dir with publicKey := some (written (deps.ops.verifyingKey secret).val o) },
        if cached then .loaded (.of deps.ops id secret) else proceed .publicKey o (.loaded (.of deps.ops id secret))⟩
  | _ => h

/-- One step: a new launch begins, the one there is goes on, or the public key's file is changed. -/
def step : IdentityInput → IdentityHost
  | .launch => { h with stage := .creatingDir }
  | .op o => h.operate deps o
  | .publicKey bytes => { h with dir.publicKey := bytes }

/-- Before the first launch, whatever is in the directory by then. -/
def start (dir : IdentityDir) : IdentityHost := ⟨dir, .idle⟩

end IdentityHost

/-! ## A machine id reads back -/

namespace UuidFormat

variable (uuids : UuidFormat)

/-- The characters of a written id are between the hyphen and the `z`. -/
theorem text_range {id : Uuid} {c : Char} (hc : c ∈ uuids.text id) : 45 ≤ c.toNat ∧ c.toNat ≤ 122 := by
  have hplain := uuids.plain_text id c (by rwa [String.toList_ofList])
  rcases hplain with h | rfl
  · have hrange := Bytes.alphanum_toNat h
    omega
  · decide

/-- There are no blanks in it, so that none are taken off when it is read. -/
theorem text_not_blank {id : Uuid} {c : Char} (hc : c ∈ uuids.text id) :
    LogParse.isWhitespace c = false := by
  obtain ⟨hlow, hhigh⟩ := uuids.text_range hc
  simp only [LogParse.isWhitespace, Bool.or_eq_false_iff, Bool.and_eq_false_iff, decide_eq_false_iff_not,
    beq_eq_false_iff_ne]
  omega

end UuidFormat

/-- What is written as text is read as text. -/
theorem readToString_utf8 (s : String) : readToString (utf8 s) = some s := by
  unfold readToString String.fromUTF8? utf8
  exact (dif_pos s.isValidUTF8).trans rfl

/-- **The id that a launch writes is the one that later launches read.** -/
theorem readMachineId_text (uuids : UuidFormat) (id : Uuid) :
    readMachineId uuids (utf8 (String.ofList (uuids.text id))) = .ok id := by
  unfold readMachineId
  simp only [readToString_utf8, String.toList_ofList]
  rw [LogParse.trim_eq_self fun c hc => uuids.text_not_blank hc, uuids.parseStr_text]
  rfl

/-! ## There is one identity -/

variable {deps : IdentityDeps} {h : IdentityHost} {id id' : Uuid} {secret : Arr 32}

/-- The machine id is on disk: what the file holds reads as this id. -/
def IdentityDir.HoldsId (uuids : UuidFormat) (d : IdentityDir) (id : Uuid) : Prop :=
  ∃ bytes, d.machineId = some bytes ∧ readMachineId uuids bytes = .ok id

/-- So is the key, as its 32 bytes. -/
structure IdentityDir.Holds (uuids : UuidFormat) (d : IdentityDir) (id : Uuid) (secret : Arr 32) :
    Prop where
  id : d.HoldsId uuids id
  secret : d.secret = some secret.val

/-- There is one machine id on disk, as the file reads as one or none. -/
theorem IdentityDir.HoldsId.unique {uuids : UuidFormat} {d : IdentityDir} (h : d.HoldsId uuids id)
    (h' : d.HoldsId uuids id') : id = id' := by
  obtain ⟨bytes, hbytes, hid⟩ := h
  obtain ⟨bytes', hbytes', hid'⟩ := h'
  rw [hbytes, Option.some.injEq] at hbytes'
  rw [← hbytes', hid] at hid'
  exact Except.ok.inj hid'

/-- The stages in which the id or the key is made. -/
def IdentityStage.makes : IdentityStage → Bool
  | .creatingId _ => true
  | .writingId _ => true
  | .creatingSecret _ _ => true
  | .writingSecret _ _ => true
  | _ => false

/-- The stages before the id is known, and those of a launch that has failed. -/
def IdentityStage.early : IdentityStage → Bool
  | .idle => true
  | .creatingDir => true
  | .readingId => true
  | .failed _ => true
  | _ => false

namespace IdentityHost

/-- What a launch goes by is on disk, at each stage as far as the launch has come. -/
def Sound (deps : IdentityDeps) (h : IdentityHost) : Prop :=
  match h.stage with
  | .writingId _ => h.dir.machineId = some []
  | .lookingForSecret id => h.dir.HoldsId deps.uuids id
  | .readingSecret id => h.dir.HoldsId deps.uuids id
  | .creatingSecret id _ => h.dir.HoldsId deps.uuids id
  | .writingSecret id _ => h.dir.HoldsId deps.uuids id
  | .creatingPublic _ id secret => h.dir.Holds deps.uuids id secret
  | .writingPublic _ id secret => h.dir.Holds deps.uuids id secret
  | .loaded i => i = .of deps.ops i.machineId i.secretKey ∧ h.dir.Holds deps.uuids i.machineId i.secretKey
  | _ => True

/-- An operation that fails ends the launch, so what is to be shown is about the next stage only. -/
theorem proceed_rule {P : IdentityStage → Prop} {path : IdentityPath} {o : IdentityOp} {next : IdentityStage}
    (failed : ∀ e, P (.failed e)) (hnext : o.fault = none → P next) : P (proceed path o next) := by
  unfold proceed
  cases hfault : o.fault with
  | some e => exact failed _
  | none => exact hnext hfault

/-- A write that succeeds has written everything there is to write. -/
theorem written_eq {o : IdentityOp} (h : o.fault = none) (bytes : Bytes) : written bytes o = bytes := by
  rw [written, h]

/-- Every operation of a launch keeps what the launch goes by on disk. -/
theorem Sound.operate (hsound : h.Sound deps) (o : IdentityOp) : (h.operate deps o).Sound deps := by
  obtain ⟨d, stage⟩ := h
  unfold IdentityHost.operate
  cases stage with
  | idle => exact hsound
  | loaded i => exact hsound
  | failed e => exact hsound
  | creatingDir => exact proceed_rule (P := (Sound deps ⟨_, ·⟩)) (fun _ => trivial) fun _ => trivial
  | readingId =>
      refine proceed_rule (P := (Sound deps ⟨_, ·⟩)) (fun _ => trivial) fun _ => ?_
      cases hfile : d.machineId with
      | none => trivial
      | some bytes =>
          cases hid : readMachineId deps.uuids bytes with
          | error e => simp only [hid]; exact True.intro
          | ok id => simp only [hid]; exact ⟨bytes, hfile, hid⟩
  | creatingId id =>
      cases hfault : o.fault with
      | some e => exact True.intro
      | none => rfl
  | writingId id =>
      refine proceed_rule (P := (Sound deps ⟨_, ·⟩)) (fun _ => trivial) fun hfault => ?_
      rw [written_eq hfault]
      exact ⟨_, rfl, readMachineId_text deps.uuids id⟩
  | lookingForSecret id =>
      by_cases hseen : o.fault = none ∧ d.secret ≠ none
      · simp only [if_pos hseen]
        exact hsound
      · simp only [if_neg hseen]
        exact hsound
  | readingSecret id =>
      refine proceed_rule (P := (Sound deps ⟨_, ·⟩)) (fun _ => trivial) fun _ => ?_
      cases hfile : d.secret with
      | none => trivial
      | some bytes =>
          cases hlength : Arr.ofBytes 32 bytes with
          | none => simp only [hlength]; exact True.intro
          | some secret =>
              simp only [hlength]
              exact ⟨hsound, by rw [hfile, Arr.val_of_ofBytes hlength]⟩
  | creatingSecret id secret =>
      cases hfault : o.fault with
      | some e => exact True.intro
      | none => exact hsound
  | writingSecret id secret =>
      refine proceed_rule (P := (Sound deps ⟨_, ·⟩)) (fun _ => trivial) fun hfault => ?_
      rw [written_eq hfault]
      exact ⟨hsound, rfl⟩
  | creatingPublic cached id secret =>
      have hholds : d.Holds deps.uuids id secret := hsound
      cases hfault : o.fault with
      | some e =>
          -- the copy of the public key may fail, the first one may not
          cases cached with
          | true => exact ⟨rfl, hholds⟩
          | false => exact True.intro
      | none => exact ⟨hholds.id, hholds.secret⟩
  | writingPublic cached id secret =>
      have hholds : d.Holds deps.uuids id secret := hsound
      cases cached with
      | true => exact ⟨rfl, hholds.id, hholds.secret⟩
      | false =>
          exact proceed_rule (P := (Sound deps ⟨_, ·⟩)) (fun _ => trivial)
            fun _ => ⟨rfl, hholds.id, hholds.secret⟩

/-- **What one step preserves**, at every stage of a launch. -/
theorem Sound.step (hsound : h.Sound deps) (a : IdentityInput) : (h.step deps a).Sound deps := by
  cases a with
  | launch => trivial
  | op o => exact hsound.operate o
  | publicKey bytes =>
      obtain ⟨d, stage⟩ := h
      cases stage with
      | creatingPublic cached id secret => exact ⟨hsound.id, hsound.secret⟩
      | writingPublic cached id secret => exact ⟨hsound.id, hsound.secret⟩
      | loaded i => exact ⟨hsound.1, hsound.2.id, hsound.2.secret⟩
      | _ => exact hsound

/-- The launch cannot tell whether there is a key, and there is one. -/
def Overlooks (h : IdentityHost) : IdentityInput → Prop
  | .op o => (∃ id, h.stage = .lookingForSecret id) ∧ o.fault ≠ none ∧ h.dir.secret ≠ none
  | _ => False

/-- The id and the key are on disk, and the launch makes no others. -/
structure Settled (deps : IdentityDeps) (id : Uuid) (secret : Arr 32) (h : IdentityHost) : Prop where
  holds : h.dir.Holds deps.uuids id secret
  quiet : h.stage.makes = false

/-- An operation that does not overlook the key makes no other identity. -/
theorem Settled.operate (hsettled : h.Settled deps id secret) {o : IdentityOp} (hsees : ¬ h.Overlooks (.op o)) :
    (h.operate deps o).Settled deps id secret := by
  obtain ⟨d, stage⟩ := h
  obtain ⟨hholds, hquiet⟩ := hsettled
  unfold IdentityHost.operate
  cases stage with
  | idle => exact ⟨hholds, hquiet⟩
  | loaded i => exact ⟨hholds, hquiet⟩
  | failed e => exact ⟨hholds, hquiet⟩
  | creatingDir => exact ⟨hholds, proceed_rule (P := (·.makes = false)) (fun _ => rfl) fun _ => rfl⟩
  | readingId =>
      obtain ⟨bytes, hfile, hid⟩ := hholds.id
      have hfile : d.machineId = some bytes := hfile
      refine ⟨hholds, proceed_rule (P := (·.makes = false)) (fun _ => rfl) fun _ => ?_⟩
      simp only [hfile, hid]
      rfl
  | creatingId id' => cases hquiet
  | writingId id' => cases hquiet
  | lookingForSecret id' =>
      -- the only way to a second key is not to see the first
      have hthere : d.secret ≠ none := by
        rw [hholds.secret]
        exact Option.some_ne_none _
      have hfault : o.fault = none := by
        by_contra hfault
        exact hsees ⟨⟨id', rfl⟩, hfault, hthere⟩
      simp only [if_pos (And.intro hfault hthere)]
      exact ⟨hholds, rfl⟩
  | readingSecret id' =>
      have hfile : d.secret = some secret.val := hholds.secret
      refine ⟨hholds, proceed_rule (P := (·.makes = false)) (fun _ => rfl) fun _ => ?_⟩
      simp only [hfile, Arr.ofBytes_val]
      rfl
  | creatingSecret id' secret' => cases hquiet
  | writingSecret id' secret' => cases hquiet
  | creatingPublic cached id' secret' =>
      cases hfault : o.fault with
      | some e =>
          refine ⟨hholds, ?_⟩
          cases cached with
          | true => rfl
          | false => rfl
      | none => exact ⟨⟨hholds.id, hholds.secret⟩, rfl⟩
  | writingPublic cached id' secret' =>
      refine ⟨⟨hholds.id, hholds.secret⟩, ?_⟩
      cases cached with
      | true => rfl
      | false => exact proceed_rule (P := (·.makes = false)) (fun _ => rfl) fun _ => rfl

/-- **An identity that is there stays**, unless a launch overlooks the key. -/
theorem Settled.step (hsettled : h.Settled deps id secret) {a : IdentityInput} (hsees : ¬ h.Overlooks a) :
    (h.step deps a).Settled deps id secret := by
  cases a with
  | launch => exact ⟨hsettled.holds, rfl⟩
  | op o => exact hsettled.operate hsees
  | publicKey bytes => exact ⟨⟨hsettled.holds.id, hsettled.holds.secret⟩, hsettled.quiet⟩

variable (deps) (dir : IdentityDir) (inputs : List IdentityInput)

/-- The files and the launch after `n` steps, from whatever was there. -/
abbrev run (n : ℕ) : IdentityHost := Run.after (step deps) (start dir) inputs n

/-- What a launch goes by is on disk at any time of a run. -/
theorem run_sound (n : ℕ) : (run deps dir inputs n).Sound deps :=
  Run.invariant trivial (fun _ a _ hsound => hsound.step a) n

variable {deps dir inputs}

/-- What a launch has loaded is there from then on. -/
theorem run_settled (hsees : ∀ n a, inputs[n]? = some a → ¬ (run deps dir inputs n).Overlooks a) {m n : ℕ}
    (hmn : m ≤ n) (hsettled : (run deps dir inputs m).Settled deps id secret) :
    (run deps dir inputs n).Settled deps id secret := by
  induction n, hmn using Nat.le_induction with
  | base => exact hsettled
  | succ n hmn ih =>
      cases ha : inputs[n]? with
      | none => rwa [run, Run.after_succ_none ha]
      | some a =>
          rw [run, Run.after_succ ha]
          exact ih.step (hsees n a ha)

/-- Two launches of a run that overlooks nothing load the same identity. -/
theorem loaded_eq (hsees : ∀ n a, inputs[n]? = some a → ¬ (run deps dir inputs n).Overlooks a)
    {m n : ℕ} (hmn : m ≤ n) {i j : Identity} (hi : (run deps dir inputs m).stage = .loaded i)
    (hj : (run deps dir inputs n).stage = .loaded j) : i = j := by
  have hsound := run_sound deps dir inputs m
  have hsound' := run_sound deps dir inputs n
  simp only [Sound, hi] at hsound
  simp only [Sound, hj] at hsound'
  have hsettled := run_settled hsees hmn ⟨hsound.2, by rw [hi]; rfl⟩
  rw [hsound.1, hsound'.1, hsettled.holds.id.unique hsound'.2.id]
  congr 1
  exact Subtype.ext (Option.some.inj (hsettled.holds.secret.symm.trans hsound'.2.secret))

variable (deps dir inputs)

/-- **All launches load the same identity**, which is what the files hold, whatever fails, wherever a
launch ends and whatever becomes of the public key's file; only a launch that cannot tell whether there
is a key puts another one in its place. -/
theorem identity_stable :
    (∀ n, (run deps dir inputs n).Sound deps) ∧
      ((∃ n a, inputs[n]? = some a ∧ (run deps dir inputs n).Overlooks a) ∨
        Set.Subsingleton {i | ∃ n, (run deps dir inputs n).stage = .loaded i}) := by
  refine ⟨run_sound deps dir inputs, ?_⟩
  by_cases hover : ∃ n a, inputs[n]? = some a ∧ (run deps dir inputs n).Overlooks a
  · exact Or.inl hover
  · have hsees : ∀ n a, inputs[n]? = some a → ¬ (run deps dir inputs n).Overlooks a :=
      fun n a ha hover' => hover ⟨n, a, ha, hover'⟩
    refine Or.inr ?_
    rintro i ⟨m, hi⟩ j ⟨n, hj⟩
    rcases le_total m n with hmn | hnm
    · exact loaded_eq hsees hmn hi hj
    · exact (loaded_eq hsees hnm hj hi).symm

/-! ## A launch that is cut short -/

/-- The file of the machine id holds something else, and no launch has come past it. -/
structure Torn (uuids : UuidFormat) (h : IdentityHost) : Prop where
  file : ∃ bytes, h.dir.machineId = some bytes ∧ ∀ id, readMachineId uuids bytes ≠ .ok id
  stage : h.stage.early = true

/-- The launch ends before its id is written, or the write stops short of the end. -/
def CutsShort : Option IdentityInput → Prop
  | some .launch => True
  | some (.op o) => o.fault ≠ none ∧ o.written < 36
  | _ => False

end IdentityHost

/-- **A part of an id does not read as one**: the one whose length would do has a hyphen in it. -/
theorem UuidFormat.parseStr_take (uuids : UuidFormat) (id : Uuid) {k : ℕ} (hk : k < 36) :
    uuids.parseStr ((uuids.text id).take k) = none := by
  have hlength : ((uuids.text id).take k).length = k := by
    rw [List.length_take, uuids.length_text]
    omega
  cases hparse : uuids.parseStr ((uuids.text id).take k) with
  | none => rfl
  | some id' =>
      rcases uuids.parseStr_some _ _ hparse with ⟨hsimple, hplain⟩ | hlong
      · have hk32 : 8 < k := by omega
        have hmem : '-' ∈ (uuids.text id).take k :=
          List.mem_of_getElem? ((List.getElem?_take_of_lt hk32).trans (uuids.hyphen_text id))
        exact absurd hmem hplain
      · omega

/-- A part of the file does not read as an id either. -/
theorem readMachineId_take (uuids : UuidFormat) (id id' : Uuid) {k : ℕ} (hk : k < 36) :
    readMachineId uuids ((utf8 (String.ofList (uuids.text id))).take k) ≠ .ok id' := by
  have hascii : ∀ c ∈ uuids.text id, c.val ≤ 127 := by
    intro c hc
    exact UInt32.le_iff_toNat_le.mpr (le_trans (uuids.text_range hc).2 (by decide))
  rw [Bytes.take_utf8 hascii]
  unfold readMachineId
  simp only [readToString_utf8, String.toList_ofList]
  rw [LogParse.trim_eq_self fun c hc => uuids.text_not_blank (List.mem_of_mem_take hc),
    uuids.parseStr_take id hk]
  exact fun h => nomatch h

namespace IdentityHost

/-- A launch that is cut short leaves a torn file. -/
theorem torn_of_cutsShort (hsound : h.Sound deps) (hstage : h.stage = .writingId id) {a : IdentityInput}
    (hcut : CutsShort (some a)) : (h.step deps a).Torn deps.uuids := by
  obtain ⟨d, stage⟩ := h
  have hstage : stage = .writingId id := hstage
  subst hstage
  cases a with
  | launch => exact ⟨⟨[], hsound, fun id' => readMachineId_take deps.uuids id id' (by decide : 0 < 36)⟩, rfl⟩
  | op o =>
      obtain ⟨hfault, hwritten⟩ := hcut
      obtain ⟨e, hfault⟩ := Option.ne_none_iff_exists'.mp hfault
      refine ⟨⟨_, rfl, fun id' => ?_⟩, proceed_rule (P := (·.early = true)) (fun _ => rfl) fun hnone => ?_⟩
      · rw [written, hfault]
        exact readMachineId_take deps.uuids id id' hwritten
      · rw [hfault] at hnone
        cases hnone
  | publicKey bytes => exact hcut.elim

/-- **A torn file stays torn**: there is no launch that puts an id in its place. -/
theorem Torn.step (htorn : h.Torn deps.uuids) (a : IdentityInput) : (h.step deps a).Torn deps.uuids := by
  obtain ⟨d, stage⟩ := h
  obtain ⟨⟨bytes, hfile, hbytes⟩, hstage⟩ := htorn
  have hfile : d.machineId = some bytes := hfile
  cases a with
  | launch => exact ⟨⟨bytes, hfile, hbytes⟩, rfl⟩
  | publicKey key => exact ⟨⟨bytes, hfile, hbytes⟩, hstage⟩
  | op o =>
      cases stage with
      | idle => exact ⟨⟨bytes, hfile, hbytes⟩, rfl⟩
      | failed e => exact ⟨⟨bytes, hfile, hbytes⟩, rfl⟩
      | creatingDir =>
          exact ⟨⟨bytes, hfile, hbytes⟩, proceed_rule (P := (·.early = true)) (fun _ => rfl) fun _ => rfl⟩
      | readingId =>
          refine ⟨⟨bytes, hfile, hbytes⟩, proceed_rule (P := (·.early = true)) (fun _ => rfl) fun _ => ?_⟩
          have hfile : d.machineId = some bytes := hfile
          cases hid : readMachineId deps.uuids bytes with
          | error e => simp only [hfile, hid]; rfl
          | ok id => exact absurd hid (hbytes id)
      | _ => cases hstage

/-- **A first launch that is cut short is the last to come up**: while its id is half written, a crash or
a full disk leaves a file that no later launch can read and none replaces. -/
theorem torn_for_good {dir : IdentityDir} {inputs : List IdentityInput} {n k : ℕ}
    (hstage : (run deps dir inputs n).stage = .writingId id) (hcut : CutsShort inputs[n]?) (hk : n < k)
    (i : Identity) : (run deps dir inputs k).stage ≠ .loaded i := by
  have htorn : (run deps dir inputs k).Torn deps.uuids := by
    induction k, hk using Nat.le_induction with
    | base =>
        cases ha : inputs[n]? with
        | none => exact (ha ▸ hcut).elim
        | some a =>
            rw [run, Run.after_succ ha]
            exact torn_of_cutsShort (run_sound deps dir inputs n) hstage (ha ▸ hcut)
    | succ k _ ih =>
        cases ha : inputs[k]? with
        | none => rwa [run, Run.after_succ_none ha]
        | some a =>
            rw [run, Run.after_succ ha]
            exact ih.step a
  intro hloaded
  have hearly := htorn.stage
  rw [hloaded] at hearly
  cases hearly

end IdentityHost

/-! ### The forms of an id -/

namespace Uuid

/-- Digits in five groups: the form in which an id is written. -/
def hyphenated (id : Uuid) : List Char :=
  let digits := (hexEncode id.val).toList
  digits.take 8 ++ '-' :: ((digits.drop 8).take 4 ++ '-' :: ((digits.drop 12).take 4 ++
    '-' :: ((digits.drop 16).take 4 ++ '-' :: digits.drop 20)))

/-- The id written without hyphens: 32 hexadecimal digits. -/
def parseSimple (cs : List Char) : Option Uuid := (hexPairs cs).bind (Arr.ofBytes 16)

/-- The id written in five groups, with hyphens where they belong. -/
def parseHyphenated (cs : List Char) : Option Uuid :=
  if cs[8]? = some '-' ∧ cs[13]? = some '-' ∧ cs[18]? = some '-' ∧ cs[23]? = some '-' then
    parseSimple (cs.take 8 ++ ((cs.drop 9).take 4 ++ ((cs.drop 14).take 4 ++ ((cs.drop 19).take 4 ++
      cs.drop 24))))
  else none

/-- All forms there are: the form goes by the length, and outside of ASCII no form has a digit. -/
def parseForms (cs : List Char) : Option Uuid :=
  if cs.length = 32 then parseSimple cs
  else if cs.length = 36 then parseHyphenated cs
  else if cs.length = 38 ∧ cs.head? = some '\x7b' ∧ cs.getLast? = some '\x7d' then
    parseHyphenated (cs.drop 1).dropLast
  else if cs.length = 45 ∧ "urn:uuid:".toList.isPrefixOf cs then parseHyphenated (cs.drop 9)
  else none

/-- The digits of an id: two for each byte. -/
theorem length_digits (id : Uuid) : (hexEncode id.val).toList.length = 32 := by
  have hlength := Bytes.length_hexEncode id.val
  rw [Arr.length_val] at hlength
  rw [String.length_toList]
  exact hlength

/-- Cutting a text into five groups and joining them. -/
theorem parseHyphenated_groups {a b c d e : List Char} (ha : a.length = 8) (hb : b.length = 4)
    (hc : c.length = 4) (hd : d.length = 4) :
    parseHyphenated (a ++ '-' :: (b ++ '-' :: (c ++ '-' :: (d ++ '-' :: e)))) =
      parseSimple (a ++ (b ++ (c ++ (d ++ e)))) := by
  unfold parseHyphenated
  rw [if_pos]
  · simp (disch := omega) [List.drop_append, ha, hb, hc, hd, List.drop_eq_nil_of_le]
  · simp [List.getElem?_append, ha, hb, hc, hd]

/-- The text of an id has 36 characters: its digits and four hyphens. -/
theorem length_hyphenated (id : Uuid) : id.hyphenated.length = 36 := by
  have h := length_digits id
  simp only [hyphenated, List.length_append, List.length_cons, List.length_take, List.length_drop, h]
  omega

/-- **An id reads back** from the form in which it is written. -/
theorem parseForms_hyphenated (id : Uuid) : parseForms id.hyphenated = some id := by
  have h := length_digits id
  have hsimple : parseSimple (hexEncode id.val).toList = some id := by
    unfold parseSimple
    rw [← Bytes.hexDecode, Bytes.hexDecode_hexEncode]
    exact Arr.ofBytes_val id
  unfold parseForms
  rw [if_neg (by rw [length_hyphenated]; decide), if_pos (length_hyphenated id), hyphenated,
    parseHyphenated_groups (by simp [h]) (by simp [h]) (by simp [h]) (by simp [h]), ← hsimple]
  have hjoin : ∀ n m, ((hexEncode id.val).toList.drop n).take m ++
      (hexEncode id.val).toList.drop (n + m) = (hexEncode id.val).toList.drop n := by
    intro n m
    rw [← List.drop_drop, List.take_append_drop]
  rw [hjoin 16 4, hjoin 12 4, hjoin 8 4, List.take_append_drop]

/-- **The text of an id is a plain one**, as the handshake takes it to be. -/
theorem plain_hyphenated (id : Uuid) : Bytes.Plain (String.ofList id.hyphenated) := by
  intro c hc
  have hdigits := Bytes.plain_hexEncode id.val
  rw [String.toList_ofList, hyphenated] at hc
  simp only [List.mem_append, List.mem_cons] at hc
  rcases hc with h | rfl | h | rfl | h | rfl | h | rfl | h
  · exact hdigits c (List.mem_of_mem_take h)
  · exact Or.inr rfl
  · exact hdigits c (List.mem_of_mem_drop (List.mem_of_mem_take h))
  · exact Or.inr rfl
  · exact hdigits c (List.mem_of_mem_drop (List.mem_of_mem_take h))
  · exact Or.inr rfl
  · exact hdigits c (List.mem_of_mem_drop (List.mem_of_mem_take h))
  · exact Or.inr rfl
  · exact hdigits c (List.mem_of_mem_drop h)

/-- The form without hyphens is the only one that is shorter. -/
theorem parseForms_some {cs : List Char} {id : Uuid} (h : parseForms cs = some id) :
    (cs.length = 32 ∧ '-' ∉ cs) ∨ 36 ≤ cs.length := by
  unfold parseForms at h
  split at h
  · next hsimple =>
    refine Or.inl ⟨hsimple, fun hmem => ?_⟩
    obtain ⟨bs, hbs, -⟩ := Option.bind_eq_some_iff.mp h
    exact absurd (by decide) (Bytes.hexValue_of_hexPairs hbs hmem)
  split at h
  · next hlength => exact Or.inr hlength.ge
  split at h
  · next hlength => exact Or.inr (by omega)
  split at h
  · next hlength => exact Or.inr (by omega)
  · cases h

end Uuid

/-- The library with these forms, which has what is asked of it. -/
def UuidFormat.standard : UuidFormat where
  text := Uuid.hyphenated
  parseStr := Uuid.parseForms
  length_text := Uuid.length_hyphenated
  plain_text := Uuid.plain_hyphenated
  hyphen_text id := by
    have h := Uuid.length_digits id
    simp [Uuid.hyphenated, h]
  parseStr_text := Uuid.parseForms_hyphenated
  parseStr_some _ _ := Uuid.parseForms_some

namespace IdentityHost

/-- The libraries of the sample machine, for the runs below. -/
def sampleIdentityDeps : IdentityDeps := ⟨Sample.ops, .standard⟩

/-- The daemon crashes before its first id is written. -/
def crashedRun : List IdentityInput :=
  let op := IdentityInput.op (.fine (Sample.pad 16 [1]) (Sample.pad 32 [2]))
  [.launch, op, op, op, .launch, op, op]

/-- The crash in `crashedRun`: the launch after it does not come up with an identity. -/
theorem torn_for_good_crash :
    (run sampleIdentityDeps ⟨none, none, none⟩ crashedRun 7).stage ≠
      .loaded (.of Sample.ops (Sample.pad 16 [1]) (Sample.pad 32 [2])) :=
  torn_for_good (n := 4) rfl (show CutsShort crashedRun[4]? from True.intro) (by decide) _

end IdentityHost

/-! ## A launch that goes well -/

/-- What there is to load, or to be made. -/
def IdentityDir.outcome (uuids : UuidFormat) (d : IdentityDir) (uuid : Uuid) (secret : Arr 32) :
    Except IdentityError (Uuid × Arr 32) := do
  let id ← match d.machineId with
    | none => .ok uuid
    | some bytes => readMachineId uuids bytes
  let key ← match d.secret with
    | none => .ok secret
    | some bytes => orError (.badKeyLength .secret) (Arr.ofBytes 32 bytes)
  return (id, key)

namespace IdentityHost

/-- **A launch in which nothing fails** loads what is there and makes what is not, whatever the last one
has left; it fails only at a file that has been torn. -/
theorem launch_alone (deps : IdentityDeps) (h : IdentityHost) (uuid : Uuid) (secret : Arr 32) :
    ((.launch :: List.replicate 9 (.op (.fine uuid secret))).foldl (step deps) h).stage =
      match h.dir.outcome deps.uuids uuid secret with
      | .error e => .failed e
      | .ok (id, key) => .loaded (.of deps.ops id key) := by
  obtain ⟨⟨machineId, key, publicKey⟩, stage⟩ := h
  simp only [List.replicate, List.foldl_cons, List.foldl_nil, IdentityDir.outcome]
  cases machineId with
  | none =>
      cases key with
      | none => rfl
      | some bytes =>
          cases hkey : Arr.ofBytes 32 bytes with
          | none => simp [step, operate, proceed, IdentityOp.fine, written, hkey, orError, bind, Except.bind]
          | some key =>
              simp [step, operate, proceed, IdentityOp.fine, written, hkey, orError, bind, Except.bind, pure,
                Except.pure]
  | some file =>
      cases hid : readMachineId deps.uuids file with
      | error e => simp [step, operate, proceed, IdentityOp.fine, hid, bind, Except.bind]
      | ok id =>
          cases key with
          | none =>
              simp [step, operate, proceed, IdentityOp.fine, hid, bind, Except.bind, pure, Except.pure]
          | some bytes =>
              cases hkey : Arr.ofBytes 32 bytes with
              | none =>
                  simp [step, operate, proceed, IdentityOp.fine, hid, hkey, orError, bind, Except.bind]
              | some key =>
                  simp [step, operate, proceed, IdentityOp.fine, hid, hkey, orError, bind, Except.bind, pure,
                    Except.pure]

end IdentityHost

end Synbad
