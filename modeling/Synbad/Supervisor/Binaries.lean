import Synbad.Lib.Bytes
import Synbad.Lib.FirstMatch
import Synbad.Update.Install

/-! # Unpacking the Core from a release

`binaries.rs`: the data archive of a Debian package is read once, and each binary that is expected in
it is written to its destination, from the first entry that has its name and lies below a `bin`
directory. What is still expected is a vector that shrinks while the archive is read.

The result of an extraction is a log of file operations and what is returned; `replay` is what the
operations do to any files, where two paths may name one file. The loop is an instance of serving
requests from a stream (`Lib.FirstMatch`): the requests are the targets, the stream the entries, and
the key an entry's name if it lies below `bin`.

`Exact` is what an exact extraction is: each target that has an entry holds the body of the first one
and can be run, unless something fails; nothing is written for any other entry; the error names
exactly the targets that were not found. `tarExtractNamed_exact` shows it for any entries, targets
with distinct names and destinations, and failures. An I/O error has a cause (`tarExtractNamed_calm`). -/

namespace Synbad

namespace Binaries

/-! ## Entries and paths -/

/-- What the `tar` crate reads of one entry: its path and what reading its body gives. -/
structure TarEntry where
  path : Bytes
  body : Bytes

/-- The components of a Unix path that are names. Empty ones are not components, and `.` is none but
at the front, where it is no name. -/
def pathNames (path : Bytes) : List Bytes :=
  (path.splitOn '/'.toUInt8).filter fun name => name ≠ [] ∧ name ≠ Bytes.utf8 "."

/-- `Path::file_name`: the last name of the path, unless it is `..`. -/
def fileName (path : Bytes) : Option Bytes :=
  match (pathNames path).getLast? with
  | none => none
  | some name => if name = Bytes.utf8 ".." then none else some name

/-- `OsStr::to_str`: the name as text, if it is UTF-8. -/
def toStr (name : Bytes) : Option String := String.fromUTF8? ⟨name.toArray⟩

namespace TarEntry

/-- The path has a component `bin`, at any depth. -/
def hasBin (e : TarEntry) : Bool := (pathNames e.path).any (· == Bytes.utf8 "bin")

/-- The last component of the path, if it is text. -/
def basename (e : TarEntry) : Option String := (fileName e.path).bind toStr

/-- The name the entry is taken for: its last component, if it lies below a `bin` directory. -/
def label (e : TarEntry) : Option String := if e.hasBin then e.basename else none

end TarEntry

/-- A name to look for in the archive, and where what is found goes. -/
abbrev Target := String × PathBuf

/-! ## Files -/

/-- A regular file: what it holds, and its mode. -/
structure DiskFile where
  bytes : Bytes
  mode : ℕ
  deriving DecidableEq

/-- What is done to the file system. A file that is created is empty from then on. -/
inductive FileOp where
  | createDirAll (dir : PathBuf)
  | create (file : PathBuf) (mode : ℕ)
  | write (file : PathBuf) (bytes : Bytes)
  | setMode (file : PathBuf) (mode : ℕ)

/-- The file that an operation writes to, and none for a directory. -/
def FileOp.file : FileOp → Option PathBuf
  | .createDirAll _ => none
  | .create file _ => some file
  | .write file _ => some file
  | .setMode file _ => some file

section Replay

variable {κ : Type*} [DecidableEq κ] (names : PathBuf → κ)

/-- What an operation does to the files, where `names` tells which file a path names. The mode of a
file that is created is its own if it is there already. -/
def FileOp.apply (files : κ → Option DiskFile) : FileOp → κ → Option DiskFile
  | .createDirAll _ => files
  | .create file mode =>
      Function.update files (names file)
        (some ⟨[], ((files (names file)).map (·.mode)).getD mode⟩)
  | .write file bytes =>
      Function.update files (names file)
        ((files (names file)).map fun f => { f with bytes := f.bytes ++ bytes })
  | .setMode file mode =>
      Function.update files (names file) ((files (names file)).map fun f => { f with mode := mode })

/-- What some operations do to the files, one after the other. -/
def replay (files : κ → Option DiskFile) (log : List FileOp) : κ → Option DiskFile :=
  log.foldl (FileOp.apply names) files

end Replay

/-! ## The source -/

/-- How what is done for one entry goes: the error of each operation that fails, how far a copy gets
until it fails, and the mode a new file has at first. -/
structure EntryAnswers where
  next : Option String
  path : Option String
  createDirAll : Option String
  create : Option String
  createMode : ℕ
  copy : Option (ℕ × String)
  permissions : Option String

/-- One layer of an `anyhow::Error`: what went wrong, or the context it was given on its way up. -/
inductive ErrorLayer where
  | text (e : String)
  | creating (path : PathBuf)

/-- The text of a layer, as the error prints it. -/
def ErrorLayer.message (unicode : UnicodeTables) : ErrorLayer → String
  | .text e => e
  | .creating path => "creating " ++ debugStr unicode path.text

/-- What `tar_extract_named` fails with: an error below, with the context it is given, outermost
first, or what was not found. -/
inductive ExtractError where
  | io (context : List ErrorLayer)
  | notFound (names : List String)

/-- The text of an `ExtractError`, with all of its context. -/
def ExtractError.message (unicode : UnicodeTables) : ExtractError → String
  | .io context => ": ".intercalate (context.map (ErrorLayer.message unicode))
  | .notFound names => "not found inside data.tar: " ++ ", ".intercalate names

/-- `File::create`, `io::copy` and `set_permissions`: what is done and what it comes to. -/
def writeOut (answers : EntryAnswers) (dest : PathBuf) (body : Bytes) :
    List FileOp × Except (List ErrorLayer) Unit :=
  match answers.create, answers.copy, answers.permissions with
  | some e, _, _ => ([], .error [.creating dest, .text e])
  | none, some (n, e), _ =>
      ([.create dest answers.createMode, .write dest (body.take n)], .error [.text e])
  | none, none, some e => ([.create dest answers.createMode, .write dest body], .error [.text e])
  | none, none, none =>
      ([.create dest answers.createMode, .write dest body, .setMode dest 0o755], .ok ())

/-- What the loop does for an entry that is taken. -/
def extract (answers : EntryAnswers) (dest : PathBuf) (body : Bytes) :
    List FileOp × Except (List ErrorLayer) Unit :=
  match Install.parent dest with
  | none => writeOut answers dest body
  | some parent =>
      match answers.createDirAll with
      | some e => ([.createDirAll parent], .error [.creating parent, .text e])
      | none =>
          let (log, outcome) := writeOut answers dest body
          (.createDirAll parent :: log, outcome)

/-- The loop of `tar_extract_named`, from the entry with this number on: what is done, and what
remains at the end. -/
def extractEntries (answers : ℕ → EntryAnswers) :
    ℕ → List TarEntry → List Target → List FileOp × Except (List ErrorLayer) (List Target)
  | _, [], remaining => ([], .ok remaining)
  | i, entry :: rest, remaining =>
      if remaining.isEmpty then ([], .ok remaining)
      else
        match (answers i).next, (answers i).path with
        | some e, _ => ([], .error [.text e])
        | none, some e => ([], .error [.text e])
        | none, none =>
            if !entry.hasBin then extractEntries answers (i + 1) rest remaining
            else
              match entry.basename with
              | none => extractEntries answers (i + 1) rest remaining
              | some fname =>
                  match FirstMatch.take (fun t => t.1 == fname) remaining with
                  | none => extractEntries answers (i + 1) rest remaining
                  | some (target, remaining) =>
                      match extract (answers i) target.2 entry.body with
                      | (log, .error e) => (log, .error e)
                      | (log, .ok ()) =>
                          let (later, outcome) := extractEntries answers (i + 1) rest remaining
                          (log ++ later, outcome)

/-- `tar_extract_named`: what is done to the file system, and what is returned. -/
def tarExtractNamed (opening : Option String) (answers : ℕ → EntryAnswers) (entries : List TarEntry)
    (targets : List Target) : List FileOp × Except ExtractError Unit :=
  match opening with
  | some e => ([], .error (.io [.text e]))
  | none =>
      match extractEntries answers 0 entries targets with
      | (log, .error e) => (log, .error (.io e))
      | (log, .ok remaining) =>
          if remaining.isEmpty then (log, .ok ())
          else (log, .error (.notFound (remaining.map (·.1))))

/-- `LayoutKind`: whether a release has one binary for both roles or one for each. -/
inductive LayoutKind where
  | unified
  | splitLegacy

/-- `Path::join`, with a relative path: a separator comes between the two unless there is one
already. -/
def join (dir : PathBuf) (name : String) : PathBuf :=
  if dir.text.toList.getLast?.all (· == '/') then ⟨dir.text ++ name⟩ else ⟨dir.text ++ "/" ++ name⟩

/-- `unified_bin_name`: the name of the one binary, on Unix. -/
def unifiedBinName : String := "deskflow-core"

/-- `LEGACY_SERVER_BIN`: the server's name in a release with two binaries. -/
def legacyServerBin : String := "deskflow-server"

/-- `LEGACY_CLIENT_BIN`: the client's name in a release with two binaries. -/
def legacyClientBin : String := "deskflow-client"

/-- `expected_targets`: which binaries are looked for in a release of this layout, and where each
goes. -/
def expectedTargets (kind : LayoutKind) (destDir : PathBuf) : List Target :=
  match kind with
  | .unified => [("deskflow-core", join destDir unifiedBinName)]
  | .splitLegacy =>
      [(legacyServerBin, join destDir legacyServerBin), (legacyClientBin, join destDir legacyClientBin)]

/-! ## Names -/

/-- The entry is the one for a target: it has a component `bin` and the target's name. -/
def TarEntry.isFor (e : TarEntry) (name : String) : Bool := e.hasBin && e.basename == some name

/-! ## One entry -/

section Replay

variable {κ : Type*} [DecidableEq κ] {names : PathBuf → κ} {files : κ → Option DiskFile} {k : κ}
  {dest : PathBuf} {body : Bytes} {mode : ℕ} {log : List FileOp}

/-- **Frame**: a file that is not written to stays as it is. -/
theorem replay_of_ne (h : ∀ op ∈ log, ∀ p, op.file = some p → names p ≠ k) :
    replay names files log k = files k := by
  induction log generalizing files with
  | nil => rfl
  | cons op log ih =>
      have hlater := @ih (op.apply names files) fun op hop => h op (List.mem_cons_of_mem _ hop)
      show replay names (op.apply names files) log k = files k
      rw [hlater]
      have hop := h op List.mem_cons_self
      cases op with
      | createDirAll dir => rfl
      | create file mode => exact Function.update_of_ne (hop file rfl).symm _ _
      | write file bytes => exact Function.update_of_ne (hop file rfl).symm _ _
      | setMode file mode => exact Function.update_of_ne (hop file rfl).symm _ _

/-- File operations one after the other leave what the later ones leave of what the earlier ones
have left. -/
theorem replay_append (earlier later : List FileOp) :
    replay names files (earlier ++ later) = replay names (replay names files earlier) later :=
  List.foldl_append

/-- What is done for an entry that is taken, if nothing fails. -/
def extraction (mode : ℕ) (dest : PathBuf) (body : Bytes) : List FileOp :=
  (Install.parent dest).toList.map .createDirAll ++
    [.create dest mode, .write dest body, .setMode dest 0o755]

/-- A write that goes well has created the file, written it and set its mode. -/
theorem writeOut_ok {answers : EntryAnswers} (h : writeOut answers dest body = (log, .ok ())) :
    log = [.create dest answers.createMode, .write dest body, .setMode dest 0o755] := by
  unfold writeOut at h
  split at h
  case h_4 => exact (Prod.mk.inj h).1.symm
  all_goals cases h

/-- An extraction that goes well has made the operations of one. -/
theorem extract_ok {answers : EntryAnswers} (h : extract answers dest body = (log, .ok ())) :
    log = extraction answers.createMode dest body := by
  unfold extract at h
  unfold extraction
  split at h
  · next hparent =>
    rw [hparent]
    exact writeOut_ok h
  · next parent hparent =>
    split at h
    · cases h
    · cases hwrite : writeOut answers dest body with
      | mk written outcome =>
          rw [hwrite] at h
          obtain ⟨rfl, rfl⟩ := Prod.mk.inj h
          rw [hparent, writeOut_ok hwrite]
          rfl

/-- **The destination holds the body** and can be run, whatever was there before. -/
theorem replay_extraction : replay names files (extraction mode dest body) (names dest) =
    some ⟨body, 0o755⟩ := by
  have hdirs : ∀ dirs : List PathBuf, replay names files (dirs.map .createDirAll) = files := by
    intro dirs
    induction dirs with
    | nil => rfl
    | cons dir dirs ih => exact ih
  -- the file is created empty, so only the body is in it
  rw [extraction, replay_append, hdirs]
  simp [replay, FileOp.apply]

/-- An operation that is part of taking an entry. -/
def FileOp.PartOf (dest : PathBuf) (body : Bytes) : FileOp → Prop
  | .createDirAll dir => Install.parent dest = some dir
  | .create file _ => file = dest
  | .write file bytes => file = dest ∧ bytes = body
  | .setMode file mode => file = dest ∧ mode = 0o755

/-- What is part of an extraction is about its destination, with its body. -/
theorem partOf_of_mem_extraction {op : FileOp} (h : op ∈ extraction mode dest body) :
    op.PartOf dest body := by
  rw [extraction, List.mem_append, List.mem_map] at h
  obtain ⟨dir, hdir, rfl⟩ | h := h
  · exact Option.mem_toList.mp hdir
  · simp only [List.mem_cons, List.not_mem_nil, or_false] at h
    obtain rfl | rfl | rfl := h
    · rfl
    · exact ⟨rfl, rfl⟩
    · exact ⟨rfl, rfl⟩

/-- An operation that is part of an extraction names no file but the destination. -/
theorem FileOp.PartOf.file_eq {op : FileOp} (h : op.PartOf dest body) {p : PathBuf}
    (hp : op.file = some p) : p = dest := by
  cases op with
  | createDirAll dir => cases hp
  | create file mode => exact (Option.some.inj hp).symm.trans h
  | write file bytes => exact (Option.some.inj hp).symm.trans h.1
  | setMode file mode => exact (Option.some.inj hp).symm.trans h.1

end Replay

/-! ## The archive -/

/-- The targets that are served from some entries, and those that are left. -/
def served (entries : List TarEntry) (targets : List Target) : List (Target × TarEntry) × List Target :=
  FirstMatch.serve TarEntry.label Prod.fst entries targets

/-- **What is done for the targets that are served**, one after the other. -/
inductive Extracts : List (Target × TarEntry) → List FileOp → Prop
  | nil : Extracts [] []
  | cons (mode : ℕ) {t : Target} {e : TarEntry} {served : List (Target × TarEntry)}
      {log : List FileOp} (h : Extracts served log) :
      Extracts ((t, e) :: served) (extraction mode t.2 e.body ++ log)

/-- **One turn of the loop**: the reasons to skip an entry come down to one, that nobody waits for
its label. -/
theorem extractEntries_cons {answers : ℕ → EntryAnswers} {i : ℕ} {entry : TarEntry}
    {rest : List TarEntry} {remaining : List Target} (hremaining : remaining.isEmpty = false)
    (hnext : (answers i).next = none) (hpath : (answers i).path = none) :
    extractEntries answers i (entry :: rest) remaining =
      match FirstMatch.take (fun t => entry.label = some t.1) remaining with
      | none => extractEntries answers (i + 1) rest remaining
      | some (target, remaining) =>
          match extract (answers i) target.2 entry.body with
          | (log, .error e) => (log, .error e)
          | (log, .ok ()) =>
              let (later, outcome) := extractEntries answers (i + 1) rest remaining
              (log ++ later, outcome) := by
  rw [extractEntries, hremaining, if_neg Bool.false_ne_true, hnext, hpath]
  -- an entry without a label is for nobody
  have hnobody : entry.label = none →
      FirstMatch.take (fun t : Target => decide (entry.label = some t.1)) remaining = none := by
    intro hlabel
    rw [FirstMatch.take_eq_none_iff]
    intro t _
    simp [hlabel]
  cases hbin : entry.hasBin with
  | false => rw [hnobody (by simp [TarEntry.label, hbin])]; rfl
  | true =>
      cases hname : entry.basename with
      | none => rw [hnobody (by simp [TarEntry.label, hbin, hname])]; rfl
      | some fname =>
          have hfits : (fun t : Target => t.1 == fname) =
              fun t => decide (entry.label = some t.1) := by
            funext t
            simp [TarEntry.label, hbin, hname, beq_eq_decide, eq_comm]
          simp only [hfits, Bool.not_true, Bool.false_eq_true, if_false]

/-- **The loop serves the targets**, unless an operation fails; stopping early changes nothing. -/
theorem extractEntries_ok {answers : ℕ → EntryAnswers} {i : ℕ} {entries : List TarEntry}
    {remaining left : List Target} {log : List FileOp}
    (h : extractEntries answers i entries remaining = (log, .ok left)) :
    Extracts (served entries remaining).1 log ∧ left = (served entries remaining).2 := by
  -- induction on the entries, with the targets that are left and what has been written
  induction entries generalizing i remaining log with
  | nil =>
      obtain ⟨rfl, hleft⟩ := Prod.mk.inj h
      exact ⟨.nil, (Except.ok.inj hleft).symm⟩
  | cons entry rest ih =>
      cases hempty : remaining.isEmpty with
      | true =>
          obtain rfl := List.isEmpty_iff.mp hempty
          obtain ⟨rfl, hleft⟩ := Prod.mk.inj h
          rw [served, FirstMatch.serve_nil]
          exact ⟨.nil, (Except.ok.inj hleft).symm⟩
      | false =>
      cases hnext : (answers i).next with
      -- an entry that cannot be read ends the extraction, against the hypothesis
      | some e => simp [extractEntries, hempty, hnext] at h
      | none =>
      cases hpath : (answers i).path with
      | some e => simp [extractEntries, hempty, hnext, hpath] at h
      | none =>
      rw [extractEntries_cons hempty hnext hpath] at h
      rw [served, FirstMatch.serve]
      split at h
      · next hnone =>
        -- no target is left that the entry is for, and nothing is written
        rw [hnone]
        exact ih h
      next target remaining' hsome =>
      rw [hsome]
      split at h
      · cases h
      next taken hextract =>
      -- its target is taken, and the rest of the archive serves the others
      cases hrest : extractEntries answers (i + 1) rest remaining' with
      | mk later outcome =>
          rw [hrest] at h
          obtain ⟨rfl, rfl⟩ := Prod.mk.inj h
          obtain ⟨hextracts, hleft⟩ := ih hrest
          rw [extract_ok hextract]
          exact ⟨.cons _ hextracts, hleft⟩

section Archive

variable {κ : Type*} [DecidableEq κ] {names : PathBuf → κ} {files : κ → Option DiskFile} {k : κ}
  {pairs : List (Target × TarEntry)} {log : List FileOp} {t : Target} {e : TarEntry}

/-- Nothing is done but for the targets that are served. -/
theorem Extracts.partOf (h : Extracts pairs log) {op : FileOp} (hop : op ∈ log) :
    ∃ t e, (t, e) ∈ pairs ∧ op.PartOf t.2 e.body := by
  induction h with
  | nil => cases hop
  | @cons mode t e pairs log h ih =>
      rcases List.mem_append.mp hop with hop | hop
      · exact ⟨t, e, List.mem_cons_self, partOf_of_mem_extraction hop⟩
      · obtain ⟨t', e', hmem, hpart⟩ := ih hop
        exact ⟨t', e', List.mem_cons_of_mem _ hmem, hpart⟩

/-- For each target that is served its destination is written. -/
theorem Extracts.written (h : Extracts pairs log) (hmem : (t, e) ∈ pairs) :
    ∃ op ∈ log, op.file = some t.2 := by
  induction h with
  | nil => cases hmem
  | @cons mode t' e' pairs log h ih =>
      rcases List.mem_cons.mp hmem with heq | hmem
      · obtain ⟨rfl, rfl⟩ := Prod.mk.inj heq
        refine ⟨.setMode t.2 0o755, ?_, rfl⟩
        simp [extraction]
      · obtain ⟨op, hop, hfile⟩ := ih hmem
        exact ⟨op, List.mem_append_right _ hop, hfile⟩

/-- Files that are no destination of theirs stay as they are. -/
theorem Extracts.untouched (h : Extracts pairs log) (hk : k ∉ pairs.map fun s => names s.1.2) :
    replay names files log k = files k := by
  refine replay_of_ne fun op hop p hp => ?_
  obtain ⟨t, e, hmem, hpart⟩ := h.partOf hop
  rintro rfl
  rw [hpart.file_eq hp] at hk
  exact hk (List.mem_map_of_mem (f := fun s => names s.1.2) hmem)

/-- **Each destination holds the body of its entry** at the end: nothing done for another target
undoes it. -/
theorem Extracts.holds (h : Extracts pairs log) (hdests : (pairs.map fun s => names s.1.2).Nodup)
    (hmem : (t, e) ∈ pairs) : replay names files log (names t.2) = some ⟨e.body, 0o755⟩ := by
  induction h generalizing files with
  | nil => cases hmem
  | @cons mode t' e' pairs log h ih =>
      rw [List.map_cons, List.nodup_cons] at hdests
      rw [replay_append]
      rcases List.mem_cons.mp hmem with heq | hmem
      · -- what is done after it is done for other destinations
        obtain ⟨rfl, rfl⟩ := Prod.mk.inj heq
        rw [h.untouched hdests.1]
        exact replay_extraction
      · exact ih hdests.2 hmem

end Archive

/-! ## Exactness -/

/-- An entry is for a name if that is its label. -/
theorem TarEntry.isFor_eq (name : String) :
    (fun e : TarEntry => e.isFor name) = fun e => decide (e.label = some name) := by
  funext e
  rw [TarEntry.isFor, TarEntry.label]
  cases e.hasBin <;> simp [beq_eq_decide]

/-- Nothing is written to the file that a path names. -/
def Unwritten {κ : Type*} (names : PathBuf → κ) (log : List FileOp) (dest : PathBuf) : Prop :=
  ∀ op ∈ log, ∀ p, op.file = some p → names p ≠ names dest

/-- **What an exact extraction is**, of these entries for these targets: what it did, what it
returned, and what that leaves of any files. -/
structure Exact {κ : Type*} [DecidableEq κ] (names : PathBuf → κ) (entries : List TarEntry)
    (targets : List Target) (log : List FileOp) (outcome : Except ExtractError Unit) : Prop where
  /-- It succeeds if and only if there is an entry for every target. -/
  ok_iff : outcome = .ok () ↔
    ∀ t ∈ targets, ∃ e ∈ entries, e.hasBin = true ∧ e.basename = some t.1
  /-- A target that is found holds the body of the first entry for it. -/
  found : ∀ t ∈ targets, ∀ e, entries.find? (·.isFor t.1) = some e →
    ∀ files, replay names files log (names t.2) = some ⟨e.body, 0o755⟩
  /-- Nothing is done for any entry but the first that a target is looked for in. -/
  only : ∀ op ∈ log, ∃ t ∈ targets, ∃ e, entries.find? (·.isFor t.1) = some e ∧
    op.PartOf t.2 e.body
  /-- No file changes but the destinations of the targets that are found. -/
  untouched : ∀ k, (∀ t ∈ targets, names t.2 = k → entries.find? (·.isFor t.1) = none) →
    ∀ files, replay names files log k = files k
  /-- If it fails, it reports each target that it has not written, and no others. -/
  missing : ∀ error, outcome = .error error → ∃ reported : List String, error = .notFound reported ∧
    reported.Nodup ∧
    ∀ name, name ∈ reported ↔ ∃ t ∈ targets, t.1 = name ∧ Unwritten names log t.2

variable {κ : Type*} {names : PathBuf → κ} {entries : List TarEntry}
  {targets : List Target} {log : List FileOp} {t : Target} {e : TarEntry}

/-- What is served is a target with the first entry that is for it. -/
theorem mem_served_iff (hnames : (targets.map (·.1)).Nodup) :
    (t, e) ∈ (served entries targets).1 ↔
      t ∈ targets ∧ entries.find? (·.isFor t.1) = some e := by
  rw [TarEntry.isFor_eq]
  exact FirstMatch.mem_serve_iff hnames

/-- What is left is a target that no entry is for. -/
theorem mem_left_iff (hnames : (targets.map (·.1)).Nodup) :
    t ∈ (served entries targets).2 ↔ t ∈ targets ∧ entries.find? (·.isFor t.1) = none := by
  rw [TarEntry.isFor_eq]
  exact FirstMatch.mem_left_iff hnames

/-- The destinations that are served are distinct, as all of them are. -/
theorem served_dests_nodup (hdests : (targets.map fun t => names t.2).Nodup) :
    ((served entries targets).1.map fun s => names s.1.2).Nodup := by
  have hperm := FirstMatch.serve_perm TarEntry.label Prod.fst entries targets
  have hall := (hperm.map fun t : Target => names t.2).nodup_iff.mpr hdests
  rw [List.map_append, List.map_map] at hall
  exact hall.of_append_left

/-- Nobody is left if and only if everyone has an entry. -/
theorem left_eq_nil_iff (hnames : (targets.map (·.1)).Nodup) :
    (served entries targets).2 = [] ↔
      ∀ t ∈ targets, ∃ e ∈ entries, e.hasBin = true ∧ e.basename = some t.1 := by
  rw [List.eq_nil_iff_forall_not_mem]
  constructor
  · intro h t ht
    have hfind : entries.find? (·.isFor t.1) ≠ none :=
      fun hnone => h t ((mem_left_iff hnames).mpr ⟨ht, hnone⟩)
    obtain ⟨e, he⟩ := Option.ne_none_iff_exists'.mp hfind
    have hfor := List.find?_some he
    rw [TarEntry.isFor, Bool.and_eq_true, beq_iff_eq] at hfor
    exact ⟨e, List.mem_of_find?_eq_some he, hfor⟩
  · intro h t hleft
    obtain ⟨ht, hnone⟩ := (mem_left_iff hnames).mp hleft
    obtain ⟨e, he, hbin, hname⟩ := h t ht
    refine List.find?_eq_none.mp hnone e he ?_
    rw [TarEntry.isFor, hbin, hname, Bool.true_and, beq_self_eq_true]

/-- **Left are the targets that are not written**, as no other target has their destination. -/
theorem Extracts.mem_left_iff (hnames : (targets.map (·.1)).Nodup)
    (hdests : (targets.map fun t => names t.2).Nodup)
    (h : Extracts (served entries targets).1 log) :
    t ∈ (served entries targets).2 ↔ t ∈ targets ∧ Unwritten names log t.2 := by
  rw [Binaries.mem_left_iff hnames]
  constructor
  · rintro ⟨ht, hnone⟩
    refine ⟨ht, fun op hop p hp hsame => ?_⟩
    obtain ⟨t', e', hmem, hpart⟩ := h.partOf hop
    obtain ⟨ht', hfind⟩ := (mem_served_iff hnames).mp hmem
    rw [hpart.file_eq hp] at hsame
    -- whoever writes to its destination is the target itself, but it has no entry
    obtain rfl := List.inj_on_of_nodup_map hdests ht' ht hsame
    rw [hnone] at hfind
    cases hfind
  · rintro ⟨ht, hunwritten⟩
    refine ⟨ht, ?_⟩
    by_contra hfind
    obtain ⟨e, he⟩ := Option.ne_none_iff_exists'.mp hfind
    obtain ⟨op, hop, hfile⟩ := h.written ((mem_served_iff hnames).mpr ⟨ht, he⟩)
    exact hunwritten op hop t.2 hfile rfl

/-- What is done for the served targets is exact. -/
theorem Extracts.exact [DecidableEq κ] (hnames : (targets.map (·.1)).Nodup)
    (hdests : (targets.map fun t => names t.2).Nodup)
    (h : Extracts (served entries targets).1 log) :
    Exact names entries targets log
      (if (served entries targets).2.isEmpty then .ok ()
        else .error (.notFound ((served entries targets).2.map (·.1)))) := by
  constructor
  -- an extraction is fine exactly if nothing that is wanted was left out
  case ok_iff =>
    rw [← left_eq_nil_iff hnames, ← List.isEmpty_iff]
    split <;> simp_all
  case found =>
    intro t ht e he files
    exact h.holds (served_dests_nodup hdests) ((mem_served_iff hnames).mpr ⟨ht, he⟩)
  case only =>
    intro op hop
    obtain ⟨t, e, hmem, hpart⟩ := h.partOf hop
    obtain ⟨ht, he⟩ := (mem_served_iff hnames).mp hmem
    exact ⟨t, ht, e, he, hpart⟩
  case untouched =>
    intro k hk files
    -- what has been written was served, and to the place of one that was wanted
    refine h.untouched fun hmem => ?_
    obtain ⟨⟨t, e⟩, hserved, hname⟩ := List.mem_map.mp hmem
    obtain ⟨ht, he⟩ := (mem_served_iff hnames).mp hserved
    rw [hk t ht hname] at he
    cases he
  case missing =>
    intro error herror
    split at herror
    · cases herror
    refine ⟨_, (Except.error.inj herror).symm, ?_, fun name => ?_⟩
    · have hperm := FirstMatch.serve_perm TarEntry.label Prod.fst entries targets
      have hall := (hperm.map Prod.fst).nodup_iff.mpr hnames
      rw [List.map_append] at hall
      exact hall.of_append_right
    · rw [List.mem_map]
      constructor
      · rintro ⟨t, hleft, rfl⟩
        obtain ⟨ht, hunwritten⟩ := (h.mem_left_iff hnames hdests).mp hleft
        exact ⟨t, ht, rfl, hunwritten⟩
      · rintro ⟨t, ht, rfl, hunwritten⟩
        exact ⟨t, (h.mem_left_iff hnames hdests).mpr ⟨ht, hunwritten⟩, rfl⟩

/-- Once the loop has come to its end, so is the extraction. -/
theorem tarExtractNamed_of_loop [DecidableEq κ] {answers : ℕ → EntryAnswers} {left : List Target}
    (hnames : (targets.map (·.1)).Nodup) (hdests : (targets.map fun t => names t.2).Nodup)
    (hloop : extractEntries answers 0 entries targets = (log, .ok left)) :
    Exact names entries targets (tarExtractNamed none answers entries targets).1
      (tarExtractNamed none answers entries targets).2 := by
  obtain ⟨hextracts, rfl⟩ := extractEntries_ok hloop
  have hexact := hextracts.exact hnames hdests
  unfold tarExtractNamed
  rw [hloop]
  dsimp only
  split at hexact
  · next hempty =>
    rw [if_pos hempty]
    exact hexact
  · next hleft =>
    rw [if_neg hleft]
    exact hexact

/-- **`tar_extract_named` is exact**, whatever may fail, as long as nothing has failed. -/
theorem tarExtractNamed_exact [DecidableEq κ] {opening : Option String} {answers : ℕ → EntryAnswers}
    (hnames : (targets.map (·.1)).Nodup) (hdests : (targets.map fun t => names t.2).Nodup)
    (hio : ∀ context, (tarExtractNamed opening answers entries targets).2 ≠ .error (.io context)) :
    Exact names entries targets (tarExtractNamed opening answers entries targets).1
      (tarExtractNamed opening answers entries targets).2 := by
  cases opening with
  | some e => exact absurd rfl (hio [.text e])
  | none =>
      cases hloop : extractEntries answers 0 entries targets with
      | mk log outcome =>
          cases outcome with
          | error e =>
              have hfails : (tarExtractNamed none answers entries targets).2 = .error (.io e) := by
                rw [tarExtractNamed, hloop]
              exact absurd hfails (hio e)
          | ok left => exact tarExtractNamed_of_loop hnames hdests hloop

/-- An archive with a lookalike outside `bin`, an unrelated file and a second server. -/
def splitArchive : List TarEntry :=
  [⟨Bytes.utf8 "./usr/share/doc/deskflow-server", [1]⟩, ⟨Bytes.utf8 "./usr/bin/deskflow", [2]⟩,
    ⟨Bytes.utf8 "./usr/bin/deskflow-server", [3]⟩, ⟨Bytes.utf8 "./usr/bin/deskflow-client", [4]⟩,
    ⟨Bytes.utf8 "./opt/bin/deskflow-server", [5]⟩]

/-- No operation fails, and a new file has the usual mode. -/
def noFailures : EntryAnswers := ⟨none, none, none, none, 0o644, none, none⟩

/-- From an archive with a lookalike and one name twice, every binary that is asked for is
extracted. -/
theorem tarExtractNamed_exact_split :
    (tarExtractNamed none (fun _ => noFailures) splitArchive
        (expectedTargets .splitLegacy ⟨"/core"⟩)).2 = .ok () ∧
      Exact PathBuf.components splitArchive (expectedTargets .splitLegacy ⟨"/core"⟩)
        (tarExtractNamed none (fun _ => noFailures) splitArchive
          (expectedTargets .splitLegacy ⟨"/core"⟩)).1
        (tarExtractNamed none (fun _ => noFailures) splitArchive
          (expectedTargets .splitLegacy ⟨"/core"⟩)).2 := by
  have hok : (tarExtractNamed none (fun _ => noFailures) splitArchive
      (expectedTargets .splitLegacy ⟨"/core"⟩)).2 = .ok () := by
    rfl
  refine ⟨hok, tarExtractNamed_exact (by decide) (by decide +kernel) fun context => ?_⟩
  rw [hok]
  simp

/-! ## Without failures -/

/-- None of the operations for an entry fails. -/
def EntryAnswers.Calm (answers : EntryAnswers) : Prop :=
  answers.next = none ∧ answers.path = none ∧ answers.createDirAll = none ∧
    answers.create = none ∧ answers.copy = none ∧ answers.permissions = none

/-- Where nothing fails an extraction goes well, and makes its operations. -/
theorem EntryAnswers.Calm.extract_eq {answers : EntryAnswers} (h : answers.Calm) (dest : PathBuf)
    (body : Bytes) : extract answers dest body = (extraction answers.createMode dest body, .ok ()) := by
  obtain ⟨-, -, hdirs, hcreate, hcopy, hpermissions⟩ := h
  unfold extract extraction writeOut
  cases Install.parent dest with
  | none => simp only [hcreate, hcopy, hpermissions]; rfl
  | some parent => simp only [hdirs, hcreate, hcopy, hpermissions]; rfl

/-- Where nothing fails all entries are gone through. -/
theorem extractEntries_calm {answers : ℕ → EntryAnswers} (calm : ∀ i, (answers i).Calm) (i : ℕ)
    (entries : List TarEntry) (remaining : List Target) :
    ∃ log left, extractEntries answers i entries remaining = (log, .ok left) := by
  induction entries generalizing i remaining with
  | nil => exact ⟨_, _, rfl⟩
  | cons entry rest ih =>
      have hcalm := calm i
      cases hempty : remaining.isEmpty with
      | true => exact ⟨[], remaining, by rw [extractEntries, hempty, if_pos rfl]⟩
      | false =>
          rw [extractEntries_cons hempty hcalm.1 hcalm.2.1]
          split
          · exact ih (i + 1) remaining
          · next target remaining' _ =>
            obtain ⟨log, left, hrest⟩ := ih (i + 1) remaining'
            rw [hcalm.extract_eq, hrest]
            exact ⟨_, _, rfl⟩

/-- **An I/O error has a cause**: if nothing fails there is none. -/
theorem tarExtractNamed_calm {answers : ℕ → EntryAnswers} (calm : ∀ i, (answers i).Calm)
    (entries : List TarEntry) (targets : List Target) (context : List ErrorLayer) :
    (tarExtractNamed none answers entries targets).2 ≠ .error (.io context) := by
  obtain ⟨log, left, hloop⟩ := extractEntries_calm calm 0 entries targets
  unfold tarExtractNamed
  rw [hloop]
  dsimp only
  split <;> simp

/-! ## The targets of a release -/

/-- A path that ends in a name has it as its last component. -/
theorem components_getLast? {p : PathBuf} {dir name : List Char}
    (htext : p.text.toList = dir ++ name) (hdir : dir.getLast?.all (· == '/') = true)
    (hslash : '/' ∉ name) (hempty : name ≠ []) (hdot : name ≠ ['.']) :
    p.components.2.getLast? = some name := by
  obtain ⟨before, hpieces⟩ : ∃ before, (dir ++ name).splitOn '/' = before ++ [name] := by
    cases dir.eq_nil_or_concat with
    | inl h =>
        subst h
        exact ⟨[], List.splitOn_eq_singleton hslash⟩
    | inr h =>
        obtain ⟨init, last, rfl⟩ := h
        have hlast : last = '/' := by simpa using hdir
        refine ⟨init.splitOn '/', ?_⟩
        rw [hlast, List.concat_eq_append, List.append_assoc, List.singleton_append, List.splitOn_append_cons_self,
          List.splitOn_eq_singleton hslash]
  have hname : [name].filter (· ≠ []) = [name] := by simp [hempty]
  have hkeep : [name].filter (· ≠ ['.']) = [name] := by simp [hdot]
  unfold PathBuf.components
  simp only [htext, hpieces, List.filter_append, hname]
  split
  · next rest heq =>
    -- the path starts with a dot, which is not the name
    cases hbefore : before.filter (· ≠ []) with
    | nil =>
        rw [hbefore] at heq
        exact absurd (List.cons.inj heq).1 hdot
    | cons first others =>
        rw [hbefore] at heq
        have hrest : rest = others ++ [name] := (List.cons.inj heq).2.symm
        rw [hrest, List.filter_append, hkeep, ← List.append_assoc]
        exact List.getLast?_concat
  · rw [List.filter_append, hkeep]
    exact List.getLast?_concat

/-- What is joined to a directory is the last component. -/
theorem components_join {dir : PathBuf} {name : String} (hslash : '/' ∉ name.toList)
    (hempty : name.toList ≠ []) (hdot : name.toList ≠ ['.']) :
    (join dir name).components.2.getLast? = some name.toList := by
  unfold join
  split
  · next hdir =>
    exact components_getLast? String.toList_append hdir hslash hempty hdot
  · refine @components_getLast? _ (dir.text.toList ++ ['/']) _ ?_ ?_ hslash hempty hdot
    · rw [String.toList_append, String.toList_append]
      rfl
    · simp

/-- **The targets of a release are distinct**, wherever they go. -/
theorem expectedTargets_distinct (kind : LayoutKind) (destDir : PathBuf) :
    ((expectedTargets kind destDir).map (·.1)).Nodup ∧
      ((expectedTargets kind destDir).map fun t => t.2.components).Nodup := by
  cases kind with
  | unified => simp [expectedTargets]
  | splitLegacy =>
      constructor
      · simp [expectedTargets, legacyServerBin, legacyClientBin]
      · have hserver := @components_join destDir legacyServerBin (by decide) (by decide) (by decide)
        have hclient := @components_join destDir legacyClientBin (by decide) (by decide) (by decide)
        have hne : (join destDir legacyServerBin).components ≠
            (join destDir legacyClientBin).components := by
          intro heq
          rw [heq, hclient] at hserver
          exact absurd hserver (by decide)
        simpa [expectedTargets] using hne

/-- So the binaries of a release are extracted exactly. -/
theorem expectedTargets_exact (kind : LayoutKind) (destDir : PathBuf) (entries : List TarEntry)
    {answers : ℕ → EntryAnswers} (calm : ∀ i, (answers i).Calm) :
    Exact PathBuf.components entries (expectedTargets kind destDir)
      (tarExtractNamed none answers entries (expectedTargets kind destDir)).1
      (tarExtractNamed none answers entries (expectedTargets kind destDir)).2 := by
  obtain ⟨hnames, hdests⟩ := expectedTargets_distinct kind destDir
  obtain ⟨log, left, hloop⟩ := extractEntries_calm calm 0 entries (expectedTargets kind destDir)
  exact tarExtractNamed_of_loop hnames hdests hloop

end Binaries

end Synbad
