import Synbad.Config.Basic
import Synbad.Lib.Slots

/-! # Installing an update

`synbad-update/src/lib.rs` and `bundle.rs`: the elevated helper moves each new binary over the old one,
one after the other, and stops at the first that fails. How a binary is replaced depends on the
platform, and so does what is left of the old one when that fails half way.

A file system is what each place holds: a file, a directory or a link. Renaming acts on the place itself
and takes a link along as it is; asking what a path is, copying and setting a mode follow links. How the
text of a link is read is left to the operating system. A plan may find links where its binaries go, but
takes none: the updater picks what it takes by the type of the entry itself. -/

namespace Synbad

namespace Install

/-! ## Files -/

mutual

/-- What a path holds: a file with its mode, a link with its text, or a directory with what is in
it. -/
inductive Node where
  | file (bytes : List UInt8) (mode : ℕ)
  | symlink (target : String)
  | dir (mode : ℕ) (entries : Entries)

/-- The entries of a directory, each with its name and what it holds. -/
inductive Entries where
  | nil
  | cons (name : String) (node : Node) (rest : Entries)

end

/-- A place of the file system: a path of the plan, or a name next to one that is made with the process
number or `nano_unique` and that no plan has. -/
inductive Place where
  | path (components : Bool × List (List Char))
  | aside (dest : Bool × List (List Char)) (nano : ℕ)
  | staging (dest : Bool × List (List Char)) (pid nano : ℕ)
  | stagedApp (dest : Bool × List (List Char)) (nano : ℕ)
  | oldApp (dest : Bool × List (List Char)) (nano : ℕ)
  deriving DecidableEq

namespace Place

/-- The destination that a name is made next to. -/
def beside : Place → Option (Bool × List (List Char))
  | .path _ => none
  | .aside dest _ => some dest
  | .staging dest _ _ => some dest
  | .stagedApp dest _ => some dest
  | .oldApp dest _ => some dest

end Place

/-- A file system is what each place holds, if it holds something. -/
abbrev Fs := Place → Option Node

/-- The file system in which paths hold this, and no name has been made next to one. -/
def Fs.ofPaths (paths : Bool × List (List Char) → Option Node) : Fs
  | .path components => paths components
  | _ => none

/-- How the operating system reads links: the place that a text means in a link at this place, and how
many links it follows before it gives up. -/
structure Links where
  read : Place → String → Place
  most : ℕ

/-- Where a node at this place leads: a link to the place its text means, anything else nowhere. -/
def Links.target (links : Links) (p : Place) : Node → Option Place
  | .symlink text => some (links.read p text)
  | _ => none

/-- Where a place leads: the place itself, or what is reached through its links as far as they are
followed. -/
def follow (links : Links) (fs : Fs) (p : Place) : Place :=
  Slots.follow links.target fs links.most p

/-- `fs::metadata`: what is at the end of the links, if there is an end. -/
def stat (links : Links) (fs : Fs) (p : Place) : Option Node :=
  match fs (follow links fs p) with
  | some (.symlink _) => none
  | node => node

/-- A path as a place of the file system, by its components. -/
def place (p : PathBuf) : Place := .path p.components

/-- `Path::parent`: the path without its last component, and nothing for the root or the empty
path. -/
def parent (p : PathBuf) : Option PathBuf :=
  match p.components with
  | (_, []) => none
  | (rooted, name :: names) =>
      some ⟨(if rooted then "/" else "") ++
        "/".intercalate (((name :: names).dropLast).map String.ofList)⟩

/-- `FileType::is_file`, of an entry itself: a link to a file is none. -/
def isRegular : Option Node → Bool
  | some (.file _ _) => true
  | _ => false

/-- `FileType::is_dir`, of an entry itself: a link to a directory is none. -/
def isDirectory : Option Node → Bool
  | some (.dir _ _) => true
  | _ => false

/-- `Path::is_file`: there is a file at the end of the links. -/
def isFile (links : Links) (fs : Fs) (p : Place) : Bool := isRegular (stat links fs p)

/-- `Path::is_dir`: there is a directory at the end of the links. -/
def isDir (links : Links) (fs : Fs) (p : Place) : Bool := isDirectory (stat links fs p)

/-- The place holds no link; it may hold a file, a directory or nothing. -/
def NoLink (fs : Fs) (p : Place) : Prop := ∀ text, fs p ≠ some (.symlink text)

/-- The place holds nothing or a regular file, neither a directory nor a link. -/
def Plain (fs : Fs) (p : Place) : Prop := fs p = none ∨ isRegular (fs p) = true

/-- What a node holds, whatever its mode: two files with the same bytes hold the same. -/
def Node.content : Node → Node
  | .file bytes _ => .file bytes 0
  | .symlink target => .symlink target
  | .dir _ entries => .dir 0 entries

/-! ## The source -/

/-- The platforms `external_replace` is compiled for, with steps of its own on macOS and on Windows. -/
inductive Platform where
  | linux
  | macos
  | windows
  deriving DecidableEq

/-- `#[cfg(unix)]`, which modes are set under: Linux and macOS. -/
def Platform.unix : Platform → Bool
  | .windows => false
  | _ => true

/-- `PlanMove`: the new binary, and where it goes. -/
structure PlanMove where
  src : PathBuf
  dst : PathBuf

/-- `Plan`: the moves of an update, in the order in which they are made. -/
structure Plan where
  tag : String
  moves : List PlanMove

/-- A step of `copy_tree`: an entry is created, or a directory gets its permissions. -/
inductive CopyStep where
  | entry (path : List String)
  | permissions (path : List String)

/-- How the operations on files go during one replacement: the error of each that fails, the numbers in
the names it makes, what a copy that failed has written by then, if it has begun to, and what a removal
leaves behind. -/
structure Attempt where
  pid : ℕ
  asideNano : ℕ
  stagingNano : ℕ
  stagedAppNano : ℕ
  oldAppNano : ℕ
  renameAside : Option String
  rename : Option String
  chmod : Bool
  copy : Option String
  written : Option (List UInt8 × ℕ)
  renameStaging : Option String
  copyTree : CopyStep → Option String
  swapOut : Option String
  swapIn : Option String
  restore : Option String
  left : Option Node

/-- `fs::rename`: it acts on the places themselves, replaces what is there and fails if there is no
source. -/
def rename (fs : Fs) (src dst : Place) : Option String → Except String Fs
  | some e => .error e
  | none =>
      match fs src with
      | none => .error "No such file or directory"
      | some _ => .ok (Slots.rename fs src dst)

/-- `fs::copy`: both ends follow links, and what is copied is a regular file. -/
def copy (links : Links) (fs : Fs) (src dst : Place) (written : Option (List UInt8 × ℕ)) :
    Option String → Fs × Except String Unit
  | some e =>
      match written with
      | some (bytes, mode) => (Function.update fs (follow links fs dst) (some (.file bytes mode)), .error e)
      | none => (fs, .error e)
  | none =>
      match stat links fs src, fs (follow links fs dst) with
      | none, _ => (fs, .error "No such file or directory (os error 2)")
      | some (.file _ _), some (.symlink _) =>
          (fs, .error "Too many levels of symbolic links (os error 40)")
      | some (.file _ _), some (.dir _ _) => (fs, .error "Is a directory (os error 21)")
      | some (.file bytes mode), _ =>
          (Function.update fs (follow links fs dst) (some (.file bytes mode)), .ok ())
      | some _, _ =>
          (fs, .error "the source path is neither a regular file nor a symlink to a regular file")

/-- `ensure_executable`, if the mode can be set: links are followed. -/
def ensureExecutable (links : Links) (fs : Fs) (p : Place) (chmod : Bool) : Fs :=
  let q := follow links fs p
  match chmod, fs q with
  | true, some (.file bytes mode) => Function.update fs q (some (.file bytes (mode ||| 0o755)))
  | true, some (.dir mode entries) => Function.update fs q (some (.dir (mode ||| 0o755) entries))
  | _, _ => fs

mutual

/-- `copy_tree`: the copy of what is there, unless a step fails; links are copied as links. -/
def copyTree (fails : CopyStep → Option String) (path : List String) : Node → Except String Node
  | .file bytes mode =>
      match fails (.entry path) with
      | some e => .error e
      | none => .ok (.file bytes mode)
  | .symlink target =>
      match fails (.entry path) with
      | some e => .error e
      | none => .ok (.symlink target)
  | .dir mode entries =>
      match fails (.entry path), copyEntries fails path entries, fails (.permissions path) with
      | some e, _, _ => .error e
      | none, .error e, _ => .error e
      | none, .ok _, some e => .error e
      | none, .ok copied, none => .ok (.dir mode copied)

/-- The loop of `copy_tree`, over the entries of a directory, which ends with the first that fails. -/
def copyEntries (fails : CopyStep → Option String) (path : List String) :
    Entries → Except String Entries
  | .nil => .ok .nil
  | .cons name node rest =>
      match copyTree fails (path ++ [name]) node, copyEntries fails path rest with
      | .error e, _ => .error e
      | .ok _, .error e => .error e
      | .ok copied, .ok others => .ok (.cons name copied others)

end

/-- `bundle::replace`: the new app is copied next to the old one, the old one moved out and the new
one in; if the last step fails the old one is moved back. -/
def replaceBundle (a : Attempt) (fs : Fs) (source : Node) (dest : PathBuf) :
    Fs × Except (List String) Unit :=
  let staging := Place.stagedApp dest.components a.stagedAppNano
  let old := Place.oldApp dest.components a.oldAppNano
  match parent dest with
  | none => (fs, .error ["app has no parent"])
  | some _ =>
      match copyTree a.copyTree [] source with
      | .error e => (Function.update fs staging a.left, .error [e])
      | .ok app =>
          let fs := Function.update fs staging (some app)
          match rename fs (place dest) old a.swapOut with
          | .error e => (Function.update fs staging a.left, .error [e])
          | .ok fs =>
              match rename fs staging (place dest) a.swapIn with
              | .error e =>
                  match rename fs old (place dest) a.restore with
                  | .error e' => (fs, .error ["restore previous app after failed update", e'])
                  | .ok fs => (Function.update fs staging a.left, .error [e])
              | .ok fs => (Function.update fs old a.left, .ok ())

/-- What Windows does first: a destination that may be running is renamed out of the way. What is asked
of is the file at the end of a link, what is renamed is the link. -/
def renameAside (platform : Platform) (links : Links) (a : Attempt) (fs : Fs) (dest : PathBuf) :
    Except (List String) Fs :=
  if platform = .windows ∧ isFile links fs (place dest) then
    match rename fs (place dest) (.aside dest.components a.asideNano) a.renameAside with
    | .error e => .error ["rename " ++ dest.text ++ " aside", e]
    | .ok fs => .ok fs
  else .ok fs

/-- The rest of `external_replace`: a direct rename, or a copy next to the destination and a rename. -/
def moveIn (platform : Platform) (links : Links) (a : Attempt) (fs : Fs) (source dest : PathBuf) :
    Fs × Except (List String) Unit :=
  match rename fs (place source) (place dest) a.rename with
  | .ok fs => (if platform.unix then ensureExecutable links fs (place dest) a.chmod else fs, .ok ())
  | .error _ =>
      match parent dest with
      | none => (fs, .error ["destination has no parent directory: " ++ dest.text])
      | some dir =>
          let staging := Place.staging dest.components a.pid a.stagingNano
          let text := dir.text ++ "/.synbad-update-stage-" ++ toString a.pid ++ "-" ++
            toString a.stagingNano
          match copy links fs (place source) staging a.written a.copy with
          | (fs, .error e) => (fs, .error ["stage copy to " ++ text, e])
          | (fs, .ok ()) =>
              let fs := if platform.unix then ensureExecutable links fs staging a.chmod else fs
              match rename fs staging (place dest) a.renameStaging with
              | .error e => (fs, .error ["rename staging " ++ text ++ " -> " ++ dest.text, e])
              | .ok fs => (fs, .ok ())

/-- `external_replace`: an app on macOS as a whole, and anything else after its old one is out of the
way. -/
def externalReplace (platform : Platform) (links : Links) (a : Attempt) (fs : Fs)
    (source dest : PathBuf) : Fs × Except (List String) Unit :=
  match platform, stat links fs (place source) with
  | .macos, some (.dir mode entries) => replaceBundle a fs (.dir mode entries) dest
  | _, _ =>
      match renameAside platform links a fs dest with
      | .error e => (fs, .error e)
      | .ok fs => moveIn platform links a fs source dest

/-- The loop of `apply_plan`, from the move with this number on. -/
def applyMoves (platform : Platform) (links : Links) (attempts : ℕ → Attempt) :
    ℕ → List PlanMove → Fs → Fs × Except (List String) Unit
  | _, [], fs => (fs, .ok ())
  | i, mv :: rest, fs =>
      match externalReplace platform links (attempts i) fs mv.src mv.dst with
      | (fs, .ok ()) => applyMoves platform links attempts (i + 1) rest fs
      | (fs, .error e) => (fs, .error (("install " ++ mv.dst.text) :: e))

/-- `apply_plan`, with what reading and parsing the plan comes to. -/
def applyPlan (platform : Platform) (links : Links) (attempts : ℕ → Attempt) (fs : Fs) :
    Except (List String) Plan → Fs × Except (List String) Plan
  | .error e => (fs, .error e)
  | .ok plan =>
      let (fs, outcome) := applyMoves platform links attempts 0 plan.moves fs
      (fs, outcome.map fun _ => plan)

/-! ## What links change

Where a place holds no link, following changes nothing. -/

section Links

variable {links : Links} {fs : Fs} {p : Place}

/-- A place without a link leads to itself. -/
theorem follow_of_noLink (h : NoLink fs p) : follow links fs p = p := by
  refine Slots.follow_of_none ?_ _
  cases hp : fs p with
  | none => rfl
  | some node =>
      cases node with
      | symlink text => exact absurd hp (h text)
      | file bytes mode => rfl
      | dir mode entries => rfl

/-- Where there is no link, the metadata are those of the entry itself. -/
theorem stat_of_noLink (h : NoLink fs p) : stat links fs p = fs p := by
  rw [stat, follow_of_noLink h]
  split
  · next text hp => exact absurd hp (h text)
  · rfl

/-- A place that holds nothing holds no link. -/
theorem noLink_of_eq_none (h : fs p = none) : NoLink fs p := by
  intro text hp
  rw [h] at hp
  cases hp

/-- A place that holds a regular file holds no link. -/
theorem noLink_of_isRegular (h : isRegular (fs p) = true) : NoLink fs p := by
  intro text hp
  rw [hp] at h
  cases h

/-- Whether there is a link depends on what the place holds, and on nothing else. -/
theorem NoLink.congr {fs' : Fs} {q : Place} (h : NoLink fs p) (heq : fs' q = fs p) : NoLink fs' q := by
  intro text hq
  exact h text (heq ▸ hq)

/-- A place that holds nothing or a regular file holds no link. -/
theorem Plain.noLink (h : Plain fs p) : NoLink fs p :=
  h.elim noLink_of_eq_none noLink_of_isRegular

/-- A place that holds nothing or a regular file holds no directory. -/
theorem Plain.not_isDirectory (h : Plain fs p) : isDirectory (fs p) ≠ true := by
  intro hdir
  rcases h with h | h
  · rw [h] at hdir
    cases hdir
  · cases hp : fs p with
    | none =>
        rw [hp] at h
        cases h
    | some node =>
        rw [hp] at h hdir
        cases node with
        | file bytes mode => cases hdir
        | symlink text => cases h
        | dir mode entries => cases h

/-- Whether a place is plain depends on what it holds, and on nothing else. -/
theorem Plain.congr {fs' : Fs} {q : Place} (h : Plain fs p) (heq : fs' q = fs p) : Plain fs' q := by
  rwa [Plain, heq]

/-- A path that is a file or a directory is there, if only as a link. -/
theorem ne_none_of_stat {node : Node} (h : stat links fs p = some node) : fs p ≠ none := by
  intro hp
  rw [stat_of_noLink (noLink_of_eq_none hp), hp] at h
  cases h

/-- Where there is a file at the end of the links, there is something at their beginning. -/
theorem ne_none_of_isFile (h : isFile links fs p = true) : fs p ≠ none := by
  cases hstat : stat links fs p with
  | none =>
      rw [isFile, hstat] at h
      cases h
  | some node => exact ne_none_of_stat hstat

end Links

/-! ## Copying an app -/

mutual

/-- The steps of `copy_tree` for a node, all of which it takes if none fails. -/
def steps (path : List String) : Node → List CopyStep
  | .file _ _ => [.entry path]
  | .symlink _ => [.entry path]
  | .dir _ entries => .entry path :: (entriesSteps path entries ++ [.permissions path])

/-- The steps of its loop for the entries of a directory, one entry after the other. -/
def entriesSteps (path : List String) : Entries → List CopyStep
  | .nil => []
  | .cons name node rest => steps (path ++ [name]) node ++ entriesSteps path rest

end

mutual

/-- **A copy of an app is complete or fails**, and it fails exactly if one of its steps does. -/
theorem copyTree_eq_ok {fails : CopyStep → Option String} {path : List String} {node copied : Node} :
    copyTree fails path node = .ok copied ↔
      copied = node ∧ ∀ s ∈ steps path node, fails s = none := by
  cases node with
  | file bytes mode => cases h : fails (.entry path) <;> simp [copyTree, steps, h, eq_comm]
  | symlink target => cases h : fails (.entry path) <;> simp [copyTree, steps, h, eq_comm]
  | dir mode entries =>
      have hentries := @copyEntries_eq_ok fails path entries
      cases h : fails (.entry path) with
      | some e => simp [copyTree, steps, h]
      | none =>
          cases hcopied : copyEntries fails path entries with
          | error e =>
              -- a copy that failed is one of whose steps one did
              have hfails : ¬ ∀ s ∈ entriesSteps path entries, fails s = none := by
                intro hall
                have hok := hentries.mpr ⟨rfl, hall⟩
                rw [hcopied] at hok
                cases hok
              simp only [copyTree, h, hcopied, reduceCtorEq, false_iff, not_and]
              intro _ hall
              refine hfails fun s hs => hall s ?_
              simp [steps, hs]
          | ok copied' =>
              -- the entries are there, and the directory's own permissions are set last
              obtain ⟨rfl, hall⟩ := hentries.mp hcopied
              cases hperm : fails (.permissions path) with
              | some e => simp [copyTree, steps, h, hcopied, hperm]
              | none =>
                  simp only [copyTree, h, hcopied, hperm, Except.ok.injEq, steps]
                  constructor
                  · rintro rfl
                    refine ⟨rfl, fun s hs => ?_⟩
                    rcases List.mem_cons.mp hs with rfl | hs
                    · exact h
                    · rcases List.mem_append.mp hs with hs | hs
                      · exact hall s hs
                      · rw [List.mem_singleton.mp hs]
                        exact hperm
                  · rintro ⟨rfl, -⟩
                    rfl

/-- The entries of a directory are copied completely or the copy fails, and it fails exactly if one
of their steps does. -/
theorem copyEntries_eq_ok {fails : CopyStep → Option String} {path : List String}
    {entries copied : Entries} :
    copyEntries fails path entries = .ok copied ↔
      copied = entries ∧ ∀ s ∈ entriesSteps path entries, fails s = none := by
  cases entries with
  | nil => simp [copyEntries, entriesSteps, eq_comm]
  | cons name node rest =>
      have hnode := @copyTree_eq_ok fails (path ++ [name]) node
      have hrest := @copyEntries_eq_ok fails path rest
      simp only [entriesSteps, List.forall_mem_append]
      cases hn : copyTree fails (path ++ [name]) node with
      | error e =>
          have hfails : ¬ ∀ s ∈ steps (path ++ [name]) node, fails s = none := by
            intro hall
            have hok := hnode.mpr ⟨rfl, hall⟩
            rw [hn] at hok
            cases hok
          simp [copyEntries, hn, hfails]
      | ok copied' =>
          obtain ⟨rfl, hall⟩ := hnode.mp hn
          cases hr : copyEntries fails path rest with
          | error e =>
              have hfails : ¬ ∀ s ∈ entriesSteps path rest, fails s = none := by
                intro hall
                have hok := hrest.mpr ⟨rfl, hall⟩
                rw [hr] at hok
                cases hok
              simp [copyEntries, hn, hr, hfails]
          | ok others =>
              obtain ⟨rfl, hall'⟩ := hrest.mp hr
              simp only [copyEntries, hn, hr, Except.ok.injEq]
              exact ⟨fun h => ⟨h.symm, hall, hall'⟩, fun h => h.1.symm⟩

end

/-! ## One replacement -/

variable {platform : Platform} {links : Links} {a : Attempt} {fs : Fs} {mv : PlanMove}

/-- The new binary gets to its destination: by a rename, or by a copy and a rename. -/
def MovesIn (links : Links) (a : Attempt) (fs : Fs) (mv : PlanMove) : Prop :=
  (a.rename = none ∧ fs (place mv.src) ≠ none) ∨
    (parent mv.dst ≠ none ∧ a.copy = none ∧ isFile links fs (place mv.src) = true ∧
      a.renameStaging = none)

/-- The new app is copied next to the old one, and the old one is moved out. -/
def SwapsOut (links : Links) (a : Attempt) (fs : Fs) (mv : PlanMove) : Prop :=
  parent mv.dst ≠ none ∧
    (∀ node, stat links fs (place mv.src) = some node → ∀ s ∈ steps [] node, a.copyTree s = none) ∧
    fs (place mv.dst) ≠ none ∧ a.swapOut = none

/-- The app as a whole is replaced: on macOS, where the source leads to a directory. -/
def Bundled (platform : Platform) (links : Links) (fs : Fs) (mv : PlanMove) : Prop :=
  platform = .macos ∧ isDir links fs (place mv.src) = true

/-- **A move that goes through**, by what its operations come to: the new binary is then at its
destination. -/
def Succeeds (platform : Platform) (links : Links) (a : Attempt) (fs : Fs) (mv : PlanMove) : Prop :=
  (Bundled platform links fs mv ∧ SwapsOut links a fs mv ∧ a.swapIn = none) ∨
    (¬ Bundled platform links fs mv ∧
      (platform = .windows ∧ isFile links fs (place mv.dst) = true → a.renameAside = none) ∧
      MovesIn links a fs mv)

/-- **A move that takes the old binary away and brings no new one**: on Windows the old one, or the link
to it, has been renamed aside and the new one does not get in; an app has been moved out, and neither
does the new one get in nor the old one back. -/
def LosesOld (platform : Platform) (links : Links) (a : Attempt) (fs : Fs) (mv : PlanMove) : Prop :=
  (Bundled platform links fs mv ∧ SwapsOut links a fs mv ∧ a.swapIn ≠ none ∧ a.restore ≠ none) ∨
    (¬ Bundled platform links fs mv ∧ platform = .windows ∧ isFile links fs (place mv.dst) = true ∧
      a.renameAside = none ∧ ¬ MovesIn links a fs mv)

/-- The destination holds what the source held, with whatever mode it has been given. -/
def Installed (fs fs' : Fs) (mv : PlanMove) : Prop :=
  ∃ node node', fs (place mv.src) = some node ∧ fs' (place mv.dst) = some node' ∧
    node'.content = node.content

/-- The destination holds what it held: the file, the app or the link that was there. -/
def Kept (fs fs' : Fs) (mv : PlanMove) : Prop := fs' (place mv.dst) = fs (place mv.dst)

/-- A place that a move has nothing to do with: neither its source nor its destination, nor a name made
next to that. -/
def Apart (mv : PlanMove) (q : Place) : Prop :=
  q ≠ place mv.src ∧ q ≠ place mv.dst ∧ q.beside ≠ some mv.dst.components

/-- No place has changed but those of the move. -/
def Frame (fs fs' : Fs) (mv : PlanMove) : Prop := ∀ q : Place, Apart mv q → fs' q = fs q

/-- What one replacement comes to: the new binary is there, or the old one is, or there is none; and
nothing else has changed. -/
inductive Replaced (platform : Platform) (links : Links) (a : Attempt) (fs : Fs) (mv : PlanMove) :
    Fs × Except (List String) Unit → Prop
  | installed {fs' : Fs} (h : Succeeds platform links a fs mv) (hdst : Installed fs fs' mv)
      (frame : Frame fs fs' mv) : Replaced platform links a fs mv (fs', .ok ())
  | kept {fs' : Fs} {e : List String} (h : ¬ Succeeds platform links a fs mv)
      (hloses : ¬ LosesOld platform links a fs mv) (hdst : Kept fs fs' mv) (frame : Frame fs fs' mv) :
      Replaced platform links a fs mv (fs', .error e)
  | lost {fs' : Fs} {e : List String} (h : ¬ Succeeds platform links a fs mv)
      (hloses : LosesOld platform links a fs mv) (hold : fs (place mv.dst) ≠ none)
      (hdst : fs' (place mv.dst) = none) (frame : Frame fs fs' mv) :
      Replaced platform links a fs mv (fs', .error e)

/-- What is relied on when a move is made: its two places are two, its source is no link, and next to
its destination there is nothing under the names of copies, or a copy that was left there. -/
structure Ready (fs : Fs) (mv : PlanMove) : Prop where
  ne : place mv.src ≠ place mv.dst
  source : NoLink fs (place mv.src)
  staging : ∀ pid nano, Plain fs (.staging mv.dst.components pid nano)

/-! ### File operations -/

/-- A rename goes through exactly if nothing stops it and there is something to rename. Then the
source's entry is the destination's. -/
theorem rename_eq_ok {src dst : Place} {fault : Option String} {fs' : Fs} :
    rename fs src dst fault = .ok fs' ↔
      fault = none ∧ fs src ≠ none ∧ fs' = Slots.rename fs src dst := by
  cases fault with
  | some e => simp [rename]
  | none => cases h : fs src <;> simp [rename, h, eq_comm]

/-- Where there is something to rename, a rename that failed had a fault. -/
theorem fault_of_rename_error {src dst : Place} {fault : Option String} {e : String}
    (h : rename fs src dst fault = .error e) (hsrc : fs src ≠ none) : fault ≠ none := by
  intro hnone
  rw [rename_eq_ok.mpr ⟨hnone, hsrc, rfl⟩] at h
  cases h

/-- Setting a mode changes no content, and no place but the one at the end of the links. -/
theorem ensureExecutable_cases (links : Links) (fs : Fs) (p : Place) (chmod : Bool) :
    ensureExecutable links fs p chmod = fs ∨
      ∃ node node', fs (follow links fs p) = some node ∧ node'.content = node.content ∧
        ensureExecutable links fs p chmod =
          Function.update fs (follow links fs p) (some node') := by
  cases chmod with
  | false => exact Or.inl rfl
  | true =>
      cases h : fs (follow links fs p) with
      | none => exact Or.inl (by simp [ensureExecutable, h])
      | some node =>
          cases node with
          | file bytes mode =>
              exact Or.inr ⟨_, .file bytes (mode ||| 0o755), rfl, rfl, by simp [ensureExecutable, h]⟩
          | dir mode entries =>
              exact Or.inr ⟨_, .dir (mode ||| 0o755) entries, rfl, rfl, by simp [ensureExecutable, h]⟩
          | symlink text => exact Or.inl (by simp [ensureExecutable, h])

/-- The mode is set on Unix only, and what a place holds but for its mode is the same after that. -/
theorem content_chmod (unix : Bool) (links : Links) (fs : Fs) (p q : Place) (chmod : Bool) :
    ((if unix then ensureExecutable links fs p chmod else fs) q).map Node.content =
      (fs q).map Node.content := by
  split
  · rcases ensureExecutable_cases links fs p chmod with h | ⟨node, node', hp, hcontent, h⟩
    · rw [h]
    · rw [h]
      by_cases hq : q = follow links fs p
      · rw [hq, Function.update_self, hp, Option.map_some, Option.map_some, hcontent]
      · rw [Function.update_of_ne hq]
  · rfl

/-- Where there is no link, no other place is touched. -/
theorem chmod_of_ne {p q : Place} (hp : NoLink fs p) (h : q ≠ p) (unix : Bool) (links : Links)
    (chmod : Bool) : (if unix then ensureExecutable links fs p chmod else fs) q = fs q := by
  split
  · rcases ensureExecutable_cases links fs p chmod with heq | ⟨node, node', -, -, heq⟩
    · rw [heq]
    · rw [heq, follow_of_noLink hp, Function.update_of_ne h]
  · rfl

/-! ### An app -/

/-- When an app is replaced, it succeeds exactly if the old one is swapped out and the new one
swapped in. -/
theorem succeeds_iff_of_bundled (h : Bundled platform links fs mv) :
    Succeeds platform links a fs mv ↔ SwapsOut links a fs mv ∧ a.swapIn = none := by
  simp [Succeeds, h]

/-- When an app is replaced, it is lost exactly if it is swapped out, the new one is not swapped in,
and the old one cannot be moved back. -/
theorem losesOld_iff_of_bundled (h : Bundled platform links fs mv) :
    LosesOld platform links a fs mv ↔
      SwapsOut links a fs mv ∧ a.swapIn ≠ none ∧ a.restore ≠ none := by
  simp [LosesOld, h]

/-- A name next to the destination is none of the places that a move has nothing to do with. -/
theorem Apart.ne {q r : Place} (h : Apart mv q) (hr : r.beside = some mv.dst.components) : q ≠ r := by
  rintro rfl
  exact h.2.2 hr

/-- As long as the old app has not been moved out it stays where it is. -/
theorem replaced_of_not_swapsOut {fs' : Fs} {e : List String} (hbundled : Bundled platform links fs mv)
    (hout : ¬ SwapsOut links a fs mv) (hkept : Kept fs fs' mv) (frame : Frame fs fs' mv) :
    Replaced platform links a fs mv (fs', .error e) := by
  refine .kept ?_ ?_ hkept frame
  · rw [succeeds_iff_of_bundled hbundled]
    exact fun h => hout h.1
  · rw [losesOld_iff_of_bundled hbundled]
    exact fun h => hout h.1

/-- The old app is under its other name, its own is free, and the new one is ready next to it. -/
structure SwappedOut (a : Attempt) (fs fs' : Fs) (mv : PlanMove) (app : Node) : Prop where
  free : fs' (place mv.dst) = none
  old : fs' (.oldApp mv.dst.components a.oldAppNano) = fs (place mv.dst)
  staged : fs' (.stagedApp mv.dst.components a.stagedAppNano) = some app
  frame : Frame fs fs' mv

/-- After the two renames of the first half the old app has its other name and the new one is ready.
-/
theorem swappedOut_rename (a : Attempt) (fs : Fs) (mv : PlanMove) (app : Node) :
    SwappedOut a fs (Slots.rename
      (Function.update fs (.stagedApp mv.dst.components a.stagedAppNano) (some app))
      (place mv.dst) (.oldApp mv.dst.components a.oldAppNano)) mv app where
  free := Slots.rename_src (by simp [place])
  old := by rw [Slots.rename_dst, Function.update_of_ne (by simp [place])]
  staged := by rw [Slots.rename_of_ne (by simp [place]) (by simp), Function.update_self]
  frame q hq := by rw [Slots.rename_of_ne hq.2.1 (hq.ne rfl), Function.update_of_ne (hq.ne rfl)]

/-- What the swap comes to once the old app has been moved out. -/
theorem SwappedOut.replaced {fs₂ : Fs} {app : Node} (h : SwappedOut a fs fs₂ mv app)
    (hbundled : Bundled platform links fs mv) (hswaps : SwapsOut links a fs mv)
    (hsource : fs (place mv.src) = some app) :
    Replaced platform links a fs mv
      (match rename fs₂ (.stagedApp mv.dst.components a.stagedAppNano) (place mv.dst) a.swapIn with
        | .error e =>
            match rename fs₂ (.oldApp mv.dst.components a.oldAppNano) (place mv.dst) a.restore with
            | .error e' => (fs₂, .error ["restore previous app after failed update", e'])
            | .ok fs => (Function.update fs (.stagedApp mv.dst.components a.stagedAppNano) a.left,
                .error [e])
        | .ok fs => (Function.update fs (.oldApp mv.dst.components a.oldAppNano) a.left, .ok ())) := by
  have hsucceeds := succeeds_iff_of_bundled (a := a) hbundled
  have hloses := losesOld_iff_of_bundled (a := a) hbundled
  cases hin : rename fs₂ (.stagedApp mv.dst.components a.stagedAppNano) (place mv.dst) a.swapIn with
  | ok fs₃ =>
      obtain ⟨hswapIn, -, rfl⟩ := rename_eq_ok.mp hin
      refine .installed (hsucceeds.mpr ⟨hswaps, hswapIn⟩) ?_ fun q hq => ?_
      · refine ⟨app, app, hsource, ?_, rfl⟩
        rw [Function.update_of_ne (by simp [place]), Slots.rename_dst, h.staged]
      · rw [Function.update_of_ne (hq.ne rfl), Slots.rename_of_ne (hq.ne rfl) hq.2.1, h.frame q hq]
  | error e =>
      have hswapIn := fault_of_rename_error hin (by rw [h.staged]; simp)
      have hfails : ¬ Succeeds platform links a fs mv := by
        rw [hsucceeds]
        exact fun h => hswapIn h.2
      cases hback : rename fs₂ (.oldApp mv.dst.components a.oldAppNano) (place mv.dst) a.restore with
      | ok fs₃ =>
          -- the old app is put back
          obtain ⟨hrestore, -, rfl⟩ := rename_eq_ok.mp hback
          refine .kept hfails ?_ ?_ fun q hq => ?_
          · rw [hloses]
            exact fun h => h.2.2 hrestore
          · show Function.update _ _ _ (place mv.dst) = _
            rw [Function.update_of_ne (by simp [place]), Slots.rename_dst, h.old]
          · rw [Function.update_of_ne (hq.ne rfl), Slots.rename_of_ne (hq.ne rfl) hq.2.1, h.frame q hq]
      | error e' =>
          have hold : fs (place mv.dst) ≠ none := hswaps.2.2.1
          have hrestore := fault_of_rename_error hback (by rw [h.old]; exact hold)
          exact .lost hfails (hloses.mpr ⟨hswaps, hswapIn, hrestore⟩) hold h.free h.frame

/-- One replacement of an app: the old one is lost only where it cannot be moved back. -/
theorem replaced_bundle {source : Node} (hready : Ready fs mv) (hbundled : Bundled platform links fs mv)
    (hsource : fs (place mv.src) = some source) :
    Replaced platform links a fs mv (replaceBundle a fs source mv.dst) := by
  have hstat : stat links fs (place mv.src) = some source := by rw [stat_of_noLink hready.source, hsource]
  unfold replaceBundle
  simp only
  cases hparent : parent mv.dst with
  | none => exact replaced_of_not_swapsOut hbundled (fun h => h.1 hparent) rfl fun q _ => rfl
  | some dir =>
      cases hcopy : copyTree a.copyTree [] source with
      | error e =>
          refine replaced_of_not_swapsOut hbundled (fun h => ?_) (Function.update_of_ne (by simp [place]) _ _)
            fun q hq => Function.update_of_ne (hq.ne rfl) _ _
          -- a copy is complete if none of its steps fails, so here one did
          rw [copyTree_eq_ok.mpr ⟨rfl, h.2.1 source hstat⟩] at hcopy
          cases hcopy
      | ok app =>
          obtain ⟨rfl, hsteps⟩ := copyTree_eq_ok.mp hcopy
          simp only
          have hdst : Function.update fs (.stagedApp mv.dst.components a.stagedAppNano) (some app)
              (place mv.dst) = fs (place mv.dst) := Function.update_of_ne (by simp [place]) _ _
          cases hout : rename (Function.update fs (.stagedApp mv.dst.components a.stagedAppNano)
            (some app)) (place mv.dst) (.oldApp mv.dst.components a.oldAppNano) a.swapOut with
          | error e =>
              refine replaced_of_not_swapsOut hbundled (fun h => ?_) ?_ fun q hq => ?_
              -- the old app could not be moved out, and is where it was
              · exact fault_of_rename_error hout (by rw [hdst]; exact h.2.2.1) h.2.2.2
              · show Function.update _ _ _ (place mv.dst) = _
                rw [Function.update_of_ne (by simp [place]), hdst]
              · rw [Function.update_of_ne (hq.ne rfl), Function.update_of_ne (hq.ne rfl)]
          | ok fs₂ =>
              obtain ⟨hswapOut, hold, rfl⟩ := rename_eq_ok.mp hout
              have hswaps : SwapsOut links a fs mv := by
                refine ⟨by rw [hparent]; simp, fun node hnode => ?_, hdst ▸ hold, hswapOut⟩
                obtain rfl := Option.some.inj (hstat.symm.trans hnode)
                exact hsteps
              -- the rest is about the app that is moved in, or the old one moved back
              exact (swappedOut_rename a fs mv app).replaced hbundled hswaps hsource

/-! ### A binary -/

/-- To a place with nothing or a file a file is copied as a whole, or the copy fails; nothing else is touched
either way. -/
theorem copy_cases {dst : Place} (hdst : Plain fs dst) (links : Links) (src : Place)
    (written : Option (List UInt8 × ℕ)) (fault : Option String) :
    (∃ bytes mode, stat links fs src = some (.file bytes mode) ∧ fault = none ∧
        isDirectory (fs dst) = false ∧
        copy links fs src dst written fault = (Function.update fs dst (some (.file bytes mode)), .ok ())) ∨
      ((fault = none → isFile links fs src = true → isDirectory (fs dst) = true) ∧
        ∃ fs' e, copy links fs src dst written fault = (fs', .error e) ∧ Plain fs' dst ∧
          ∀ q, q ≠ dst → fs' q = fs q) := by
  have hfollow : follow links fs dst = dst := follow_of_noLink hdst.noLink
  cases fault with
  | some e =>
      -- a copy that failed may have begun to write its own destination, and nothing else
      refine Or.inr ⟨fun h => (by cases h), ?_⟩
      cases written with
      | none => exact ⟨fs, e, rfl, hdst, fun _ _ => rfl⟩
      | some w =>
          obtain ⟨bytes, mode⟩ := w
          refine ⟨_, e, rfl, Or.inr ?_, fun q hq => ?_⟩
          · rw [hfollow, Function.update_self]
            rfl
          · rw [hfollow, Function.update_of_ne hq]
  | none =>
      unfold copy isFile
      rw [hfollow]
      cases hsrc : stat links fs src with
      | none => exact Or.inr ⟨fun _ h => (by cases h), fs, _, rfl, hdst, fun _ _ => rfl⟩
      | some node =>
          cases node with
          | symlink text => exact Or.inr ⟨fun _ h => (by cases h), fs, _, rfl, hdst, fun _ _ => rfl⟩
          | dir mode entries => exact Or.inr ⟨fun _ h => (by cases h), fs, _, rfl, hdst, fun _ _ => rfl⟩
          | file bytes mode =>
              cases hold : fs dst with
              | none => exact Or.inl ⟨bytes, mode, rfl, rfl, rfl, rfl⟩
              | some old =>
                  cases old with
                  | symlink text => exact absurd hold (hdst.noLink text)
                  | file bytes' mode' => exact Or.inl ⟨bytes, mode, rfl, rfl, rfl, rfl⟩
                  -- a directory in its way makes a copy fail that nothing else stops
                  | dir mode' entries =>
                      exact Or.inr ⟨fun _ _ => rfl, fs, _, rfl, hdst, fun _ _ => rfl⟩

/-- A destination that holds what the source held, but for the mode, has it installed. -/
theorem Installed.of_content {fs' : Fs} (hsome : fs (place mv.src) ≠ none)
    (h : (fs' (place mv.dst)).map Node.content = (fs (place mv.src)).map Node.content) :
    Installed fs fs' mv := by
  obtain ⟨node, hnode⟩ := Option.ne_none_iff_exists'.mp hsome
  rw [hnode, Option.map_some, Option.map_eq_some_iff] at h
  obtain ⟨node', hnode', hcontent⟩ := h
  exact ⟨node, node', hnode, hnode', hcontent⟩

/-- The new binary lies next to its destination: nothing else has changed, and the staging place holds
it. -/
structure Staged (a : Attempt) (fs fs' : Fs) (mv : PlanMove) : Prop where
  others : ∀ q, q ≠ .staging mv.dst.components a.pid a.stagingNano → fs' q = fs q
  content : (fs' (.staging mv.dst.components a.pid a.stagingNano)).map Node.content =
    (fs (place mv.src)).map Node.content

/-- A file that has been copied to the staging place is staged, whether or not its mode could be
set. -/
theorem staged_copy (unix : Bool) (links : Links) (a : Attempt) {bytes : List UInt8} {mode : ℕ}
    (hsrc : fs (place mv.src) = some (.file bytes mode)) (chmod : Bool) :
    Staged a fs
      (let copied := Function.update fs (.staging mv.dst.components a.pid a.stagingNano)
          (some (.file bytes mode))
        if unix then ensureExecutable links copied (.staging mv.dst.components a.pid a.stagingNano) chmod
        else copied) mv where
  others q hq := by
    rw [chmod_of_ne (noLink_of_isRegular (by rw [Function.update_self]; rfl)) hq,
      Function.update_of_ne hq]
  content := by
    rw [content_chmod, Function.update_self, hsrc]

/-- The copy is there, so if its rename fails that has a fault of its own. -/
theorem Staged.ne_none {fs' : Fs} (h : Staged a fs fs' mv) (hsome : fs (place mv.src) ≠ none) :
    fs' (.staging mv.dst.components a.pid a.stagingNano) ≠ none := by
  intro hnone
  have hcontent := h.content
  rw [hnone, Option.map_none, eq_comm, Option.map_eq_none_iff] at hcontent
  exact hsome hcontent

/-- The second half of a replacement, with the old binary in its place or already out of the way. -/
theorem moveIn_cases (hready : Ready fs mv) :
    (MovesIn links a fs mv ∧ ∃ fs', moveIn platform links a fs mv.src mv.dst = (fs', .ok ()) ∧
      Installed fs fs' mv ∧ Frame fs fs' mv) ∨
    (¬ MovesIn links a fs mv ∧ ∃ fs' e, moveIn platform links a fs mv.src mv.dst = (fs', .error e) ∧
      Kept fs fs' mv ∧ Frame fs fs' mv) := by
  unfold moveIn MovesIn
  cases hrename : rename fs (place mv.src) (place mv.dst) a.rename with
  | ok fs₁ =>
      -- renamed: the source's place has nothing left, and the old file is gone with the name it had
      obtain ⟨hok, hsome, rfl⟩ := rename_eq_ok.mp hrename
      have hnolink : NoLink (Slots.rename fs (place mv.src) (place mv.dst)) (place mv.dst) :=
        hready.source.congr (Slots.rename_dst ..)
      refine Or.inl ⟨Or.inl ⟨hok, hsome⟩, _, rfl, .of_content hsome ?_, fun q hq => ?_⟩
      · rw [content_chmod, Slots.rename_dst]
      · rw [chmod_of_ne hnolink hq.2.1, Slots.rename_of_ne hq.1 hq.2.1]
  | error e =>
      have hnot : ¬ (a.rename = none ∧ fs (place mv.src) ≠ none) :=
        fun h => fault_of_rename_error hrename h.2 h.1
      cases hparent : parent mv.dst with
      | none =>
          refine Or.inr ⟨?_, _, _, rfl, rfl, fun q _ => rfl⟩
          simp [hnot]
      | some dir =>
          -- the rename failed, so the way is through a copy next to the destination
          simp only [hnot, false_or]
          have hfree := hready.staging a.pid a.stagingNano
          rcases copy_cases hfree links (place mv.src) a.written a.copy with
            ⟨bytes, mode, hstat, hcopy, -, heq⟩ | ⟨hcopy, fs₁, e, heq, -, hsame⟩
          · have hfile : isFile links fs (place mv.src) = true := by rw [isFile, hstat]; rfl
            have hsrc : fs (place mv.src) = some (.file bytes mode) := by
              rw [← stat_of_noLink hready.source, hstat]
            have hstaged := staged_copy platform.unix links a hsrc a.chmod
            have hsome : fs (place mv.src) ≠ none := ne_none_of_isFile hfile
            rw [heq]
            simp only at hstaged ⊢
            cases hin : rename _ (.staging mv.dst.components a.pid a.stagingNano) (place mv.dst)
              a.renameStaging with
            | ok fs₃ =>
                obtain ⟨hok, -, rfl⟩ := rename_eq_ok.mp hin
                refine Or.inl ⟨⟨by simp, hcopy, hfile, hok⟩, _, rfl, .of_content hsome ?_, fun q hq => ?_⟩
                · rw [Slots.rename_dst, hstaged.content]
                · rw [Slots.rename_of_ne (hq.ne rfl) hq.2.1, hstaged.others q (hq.ne rfl)]
            | error e =>
                -- the copy is complete but stays where it is, and the old file stays too
                refine Or.inr ⟨fun h => ?_, _, _, rfl, hstaged.others _ (by simp [place]),
                  fun q hq => hstaged.others q (hq.ne rfl)⟩
                exact fault_of_rename_error hin (hstaged.ne_none hsome) h.2.2.2
          · rw [heq]
            -- the copy itself failed
            refine Or.inr ⟨fun h => ?_, _, _, rfl, hsame _ (by simp [place]),
              fun q hq => hsame q (hq.ne rfl)⟩
            exact hfree.not_isDirectory (hcopy h.2.1 h.2.2.1)

/-- When a binary is replaced, it succeeds exactly if the old one can be renamed aside, where that
is done, and the new one gets in. -/
theorem succeeds_iff_of_not_bundled (h : ¬ Bundled platform links fs mv) :
    Succeeds platform links a fs mv ↔
      (platform = .windows ∧ isFile links fs (place mv.dst) = true → a.renameAside = none) ∧
        MovesIn links a fs mv := by
  simp [Succeeds, h]

/-- When a binary is replaced, it is lost exactly if on Windows the old one has been renamed aside
and the new one does not get in. -/
theorem losesOld_iff_of_not_bundled (h : ¬ Bundled platform links fs mv) :
    LosesOld platform links a fs mv ↔ platform = .windows ∧ isFile links fs (place mv.dst) = true ∧
      a.renameAside = none ∧ ¬ MovesIn links a fs mv := by
  simp [LosesOld, h]

/-- What a move brings in depends on its source alone. -/
theorem movesIn_congr {fs₀ : Fs} (hready : Ready fs mv) (hsrc : fs₀ (place mv.src) = fs (place mv.src)) :
    MovesIn links a fs₀ mv ↔ MovesIn links a fs mv := by
  rw [MovesIn, MovesIn, isFile, isFile, stat_of_noLink hready.source,
    stat_of_noLink (hready.source.congr hsrc), hsrc]

/-- One replacement on Windows, of a binary that may be running. -/
theorem replaced_aside (hready : Ready fs mv) (hbundled : ¬ Bundled platform links fs mv)
    (haside : platform = .windows ∧ isFile links fs (place mv.dst) = true) :
    Replaced platform links a fs mv
      (match renameAside platform links a fs mv.dst with
        | .error e => (fs, .error e)
        | .ok fs => moveIn platform links a fs mv.src mv.dst) := by
  have hsucceeds := succeeds_iff_of_not_bundled (a := a) hbundled
  have hloses := losesOld_iff_of_not_bundled (a := a) hbundled
  have hold : fs (place mv.dst) ≠ none := ne_none_of_isFile haside.2
  unfold renameAside
  rw [if_pos haside]
  cases hrename : rename fs (place mv.dst) (.aside mv.dst.components a.asideNano) a.renameAside with
  | error e =>
      have hfault := fault_of_rename_error hrename hold
      refine .kept ?_ ?_ rfl fun q _ => rfl
      · rw [hsucceeds]
        exact fun h => hfault (h.1 haside)
      · rw [hloses]
        exact fun h => hfault h.2.2.1
  | ok fs₁ =>
      -- the old binary is under its other name, so nothing is left to keep
      obtain ⟨hfault, -, rfl⟩ := rename_eq_ok.mp hrename
      simp only
      generalize hfs₁ : Slots.rename fs (place mv.dst) (.aside mv.dst.components a.asideNano) = fs₁
      have hdst₁ : fs₁ (place mv.dst) = none := by
        rw [← hfs₁, Slots.rename_src (by simp [place])]
      have hothers : ∀ q, q ≠ place mv.dst → q ≠ .aside mv.dst.components a.asideNano →
          fs₁ q = fs q := by
        intro q hq hq'
        rw [← hfs₁, Slots.rename_of_ne hq hq']
      have hsrc₁ : fs₁ (place mv.src) = fs (place mv.src) := hothers _ hready.ne (by simp [place])
      have hready₁ : Ready fs₁ mv := by
        refine ⟨hready.ne, hready.source.congr hsrc₁, fun pid nano => ?_⟩
        exact (hready.staging pid nano).congr (hothers _ (by simp [place]) (by simp))
      have hframe₁ : Frame fs fs₁ mv := fun q hq => hothers q hq.2.1 (hq.ne rfl)
      rcases @moveIn_cases platform links a fs₁ mv hready₁ with
        ⟨hin, fs', heq', hinst, hframe⟩ | ⟨hin, fs', e, heq', hkept, hframe⟩
      · rw [heq']
        rw [movesIn_congr hready hsrc₁] at hin
        refine .installed (hsucceeds.mpr ⟨fun _ => hfault, hin⟩) ?_ fun q hq => ?_
        · obtain ⟨node, node', hnode, hnode', hcontent⟩ := hinst
          exact ⟨node, node', hsrc₁ ▸ hnode, hnode', hcontent⟩
        · rw [hframe q hq, hframe₁ q hq]
      · rw [heq']
        rw [movesIn_congr hready hsrc₁] at hin
        refine .lost ?_ (hloses.mpr ⟨haside.1, haside.2, hfault, hin⟩) hold ?_ fun q hq => ?_
        · rw [hsucceeds]
          exact fun h => hin h.2
        · exact hkept.trans hdst₁
        · rw [hframe q hq, hframe₁ q hq]

/-- One replacement of anything else where nothing is to be renamed aside first. -/
theorem replaced_direct (hready : Ready fs mv) (hbundled : ¬ Bundled platform links fs mv)
    (haside : ¬ (platform = .windows ∧ isFile links fs (place mv.dst) = true)) :
    Replaced platform links a fs mv
      (match renameAside platform links a fs mv.dst with
        | .error e => (fs, .error e)
        | .ok fs => moveIn platform links a fs mv.src mv.dst) := by
  have hsucceeds := succeeds_iff_of_not_bundled (a := a) hbundled
  have hloses := losesOld_iff_of_not_bundled (a := a) hbundled
  unfold renameAside
  rw [if_neg haside]
  simp only
  rcases @moveIn_cases platform links a fs mv hready with
    ⟨hin, fs', heq, hinst, hframe⟩ | ⟨hin, fs', e, heq, hkept, hframe⟩
  · rw [heq]
    exact .installed (hsucceeds.mpr ⟨fun h => absurd h haside, hin⟩) hinst hframe
  · rw [heq]
    refine .kept ?_ ?_ hkept hframe
    · rw [hsucceeds]
      exact fun h => hin h.2
    · rw [hloses]
      exact fun h => haside ⟨h.1, h.2.1⟩

/-- Which of the two ways of replacing is taken. -/
theorem externalReplace_of_bundled {source : Node} (hbundled : Bundled platform links fs mv)
    (hsource : stat links fs (place mv.src) = some source) :
    externalReplace platform links a fs mv.src mv.dst = replaceBundle a fs source mv.dst := by
  obtain ⟨rfl, hdir⟩ := hbundled
  rw [isDir, hsource] at hdir
  cases source with
  | dir mode entries => simp only [externalReplace, hsource]
  | file bytes mode => cases hdir
  | symlink text => cases hdir

/-- When a binary is replaced, the old one is renamed aside where that is done, and the new one
moved in then. -/
theorem externalReplace_of_not_bundled (hbundled : ¬ Bundled platform links fs mv) :
    externalReplace platform links a fs mv.src mv.dst =
      match renameAside platform links a fs mv.dst with
      | .error e => (fs, .error e)
      | .ok fs => moveIn platform links a fs mv.src mv.dst := by
  unfold externalReplace
  split
  · next mode entries hsource =>
    exact absurd ⟨rfl, by rw [isDir, hsource]; rfl⟩ hbundled
  · rfl

/-- **One replacement**, on each platform and whatever fails in it, comes to one of the three. -/
theorem replaced_externalReplace (hready : Ready fs mv) :
    Replaced platform links a fs mv (externalReplace platform links a fs mv.src mv.dst) := by
  by_cases hbundled : Bundled platform links fs mv
  · cases hsource : fs (place mv.src) with
    | none =>
        have hdir := hbundled.2
        rw [isDir, stat_of_noLink hready.source, hsource] at hdir
        cases hdir
    | some source =>
        rw [externalReplace_of_bundled hbundled (by rw [stat_of_noLink hready.source, hsource])]
        exact replaced_bundle hready hbundled hsource
  · rw [externalReplace_of_not_bundled hbundled]
    by_cases haside : platform = .windows ∧ isFile links fs (place mv.dst) = true
    · exact replaced_aside hready hbundled haside
    · exact replaced_direct hready hbundled haside

/-- Setting a mode makes no directory and no link. -/
theorem Plain.ensureExecutable {p q : Place} (h : Plain fs q) (hp : NoLink fs p) (links : Links)
    (chmod : Bool) : Plain (ensureExecutable links fs p chmod) q := by
  rcases ensureExecutable_cases links fs p chmod with heq | ⟨node, node', hnode, hcontent, heq⟩
  · rwa [heq]
  · rw [follow_of_noLink hp] at hnode heq
    rw [heq]
    by_cases hq : q = p
    · subst hq
      rcases h with h | h
      · rw [hnode] at h
        cases h
      · right
        rw [Function.update_self]
        rw [hnode] at h
        cases node <;> cases node' <;> simp_all [isRegular, Node.content]
    · exact h.congr (Function.update_of_ne hq _ _)

/-- **What a move leaves under the names of copies**: nothing, or a copy that it did not get to rename. -/
theorem plain_moveIn (hready : Ready fs mv) (pid nano : ℕ) :
    Plain (moveIn .linux links a fs mv.src mv.dst).1 (.staging mv.dst.components pid nano) := by
  have hplain := hready.staging pid nano
  unfold moveIn
  cases hrename : rename fs (place mv.src) (place mv.dst) a.rename with
  | ok fs₁ =>
      -- after a rename the names next to the destination are as they were
      obtain ⟨-, -, rfl⟩ := rename_eq_ok.mp hrename
      refine Plain.ensureExecutable (hplain.congr ?_) (hready.source.congr (Slots.rename_dst ..)) links _
      exact Slots.rename_of_ne (by simp [place]) (by simp [place])
  | error e =>
      cases hparent : parent mv.dst with
      | none => exact hplain
      | some dir =>
          simp only
          have hfree := hready.staging a.pid a.stagingNano
          rcases copy_cases hfree links (place mv.src) a.written a.copy with
            ⟨bytes, mode, -, -, -, heq⟩ | ⟨-, fs₁, e, heq, hdst, hsame⟩
          · rw [heq]
            simp only [Platform.unix, if_true]
            generalize hstaged : Place.staging mv.dst.components a.pid a.stagingNano = staging
            have hcopied : ∀ q, Plain fs q →
                Plain (Function.update fs staging (some (.file bytes mode))) q := by
              intro q hq
              by_cases hqs : q = staging
              · rw [hqs]
                exact Or.inr (by rw [Function.update_self]; rfl)
              -- every other name is untouched by the copy
              · exact hq.congr (Function.update_of_ne hqs _ _)
            have hset := (hcopied _ hplain).ensureExecutable
              (hcopied staging (hstaged ▸ hfree)).noLink links a.chmod
            cases hin : rename _ staging (place mv.dst) a.renameStaging with
            | error e => exact hset
            | ok fs₃ =>
                obtain ⟨-, -, rfl⟩ := rename_eq_ok.mp hin
                -- the copy's own name is free again, and any other is as it was
                by_cases hqs : Place.staging mv.dst.components pid nano = staging
                · rw [hqs]
                  exact Or.inl (Slots.rename_src (by rw [← hstaged]; simp [place]))
                · exact hset.congr (Slots.rename_of_ne hqs (by simp [place]))
          · rw [heq]
            simp only
            by_cases hq : Place.staging mv.dst.components pid nano =
                .staging mv.dst.components a.pid a.stagingNano
            · rwa [hq]
            · exact hplain.congr (hsame _ hq)

/-- On Linux a replacement leaves the places of copies next to its destination plain: empty, or with
a copy that was left there. -/
theorem plain_externalReplace (hready : Ready fs mv) (pid nano : ℕ) :
    Plain (externalReplace .linux links a fs mv.src mv.dst).1
      (.staging mv.dst.components pid nano) := by
  have hbundled : ¬ Bundled .linux links fs mv := fun h => by cases h.1
  have haside : ¬ (Platform.linux = .windows ∧ isFile links fs (place mv.dst) = true) :=
    fun h => by cases h.1
  rw [externalReplace_of_not_bundled hbundled, renameAside, if_neg haside]
  exact plain_moveIn hready pid nano

/-! ## A plan -/

/-- **A plan as the updater writes it**: every binary is taken from a place of its own and goes to a
place of its own, nothing is taken from where something goes, and what is taken is no link. -/
structure Plan.WellFormed (plan : Plan) (fs : Fs) : Prop where
  sources : plan.moves.Pairwise fun m m' => place m.src ≠ place m'.src
  destinations : plan.moves.Pairwise fun m m' => place m.dst ≠ place m'.dst
  apart : ∀ m ∈ plan.moves, ∀ m' ∈ plan.moves, place m.src ≠ place m'.dst
  unlinked : ∀ m ∈ plan.moves, NoLink fs (place m.src)

/-- **No move that is reached takes the old binary away and brings no new one.** A move is reached if all
moves before it go through, and is judged by what the files are then. -/
def Safe (platform : Platform) (links : Links) (attempts : ℕ → Attempt) :
    ℕ → Fs → List PlanMove → Prop
  | _, _, [] => True
  | i, fs, mv :: rest => ¬ LosesOld platform links (attempts i) fs mv ∧
      (Succeeds platform links (attempts i) fs mv →
        Safe platform links attempts (i + 1)
          (externalReplace platform links (attempts i) fs mv.src mv.dst).1 rest)

/-- **What a failed update must leave**: the moves before the one that failed are installed, that one and
those after it have left what was there. -/
def Guarantee {α : Type} (fs fs' : Fs) (moves : List PlanMove) : Except (List String) α → Prop
  | .ok _ => ∀ m ∈ moves, Installed fs fs' m
  | .error e => ∃ done mv rest cause, moves = done ++ mv :: rest ∧
      e = ("install " ++ mv.dst.text) :: cause ∧ (∀ m ∈ done, Installed fs fs' m) ∧
      ∀ m ∈ mv :: rest, Kept fs fs' m

/-- How far a plan gets from a file system on, and what that leaves of what there was at first. -/
inductive Progress (platform : Platform) (links : Links) (attempts : ℕ → Attempt) (fs₀ fs' : Fs) :
    ℕ → Fs → List PlanMove → Except (List String) Unit → Prop
  | finished {i : ℕ} {fs : Fs} : Progress platform links attempts fs₀ fs' i fs [] (.ok ())
  | installed {i : ℕ} {fs : Fs} {mv : PlanMove} {rest : List PlanMove}
      {outcome : Except (List String) Unit} (h : Succeeds platform links (attempts i) fs mv)
      (hdst : Installed fs₀ fs' mv)
      (hrest : Progress platform links attempts fs₀ fs' (i + 1)
        (externalReplace platform links (attempts i) fs mv.src mv.dst).1 rest outcome) :
      Progress platform links attempts fs₀ fs' i fs (mv :: rest) outcome
  | kept {i : ℕ} {fs : Fs} {mv : PlanMove} {rest : List PlanMove} {cause : List String}
      (h : ¬ Succeeds platform links (attempts i) fs mv)
      (hloses : ¬ LosesOld platform links (attempts i) fs mv)
      (hkept : ∀ m ∈ mv :: rest, Kept fs₀ fs' m) :
      Progress platform links attempts fs₀ fs' i fs (mv :: rest)
        (.error (("install " ++ mv.dst.text) :: cause))
  | lost {i : ℕ} {fs : Fs} {mv : PlanMove} {rest : List PlanMove} {e : List String}
      (hloses : LosesOld platform links (attempts i) fs mv) (hold : fs₀ (place mv.dst) ≠ none)
      (hdst : fs' (place mv.dst) = none) :
      Progress platform links attempts fs₀ fs' i fs (mv :: rest) (.error e)

/-- A move that goes through is none that loses the old binary. -/
theorem Succeeds.not_losesOld (h : Succeeds platform links a fs mv) :
    ¬ LosesOld platform links a fs mv := by
  rintro (⟨hbundled, -, hswapIn, -⟩ | ⟨hbundled, -, -, -, hin⟩)
  · rcases h with ⟨-, -, hnone⟩ | ⟨hnot, -⟩
    · exact hswapIn hnone
    · exact hnot hbundled
  · rcases h with ⟨hyes, -⟩ | ⟨-, -, hyes⟩
    · exact hbundled hyes
    · exact hin hyes

/-- A move that is still to be made: its places hold what they held at first, and it can be made. -/
structure Waits (fs₀ fs : Fs) (mv : PlanMove) : Prop extends Ready fs mv where
  src : fs (place mv.src) = fs₀ (place mv.src)
  dst : fs (place mv.dst) = fs₀ (place mv.dst)

/-- The moves of a plan, one after the other, in the file system that they are to be made in. -/
structure Moves (fs₀ fs : Fs) (moves : List PlanMove) : Prop where
  sources : moves.Pairwise fun m m' => place m.src ≠ place m'.src
  destinations : moves.Pairwise fun m m' => place m.dst ≠ place m'.dst
  apart : ∀ m ∈ moves, ∀ m' ∈ moves, place m.src ≠ place m'.dst
  waits : ∀ m ∈ moves, Waits fs₀ fs m

/-- At first all moves of a plan are still to be made. -/
theorem Plan.WellFormed.moves {plan : Plan} {paths : Bool × List (List Char) → Option Node}
    (h : plan.WellFormed (Fs.ofPaths paths)) :
    Moves (Fs.ofPaths paths) (Fs.ofPaths paths) plan.moves where
  sources := h.sources
  destinations := h.destinations
  apart := h.apart
  waits m hm := ⟨⟨h.apart m hm m hm, h.unlinked m hm, fun _ _ => Or.inl rfl⟩, rfl, rfl⟩

/-- A place of a later move is none of an earlier one's. -/
theorem Moves.apart_of_mem {fs₀ : Fs} {rest : List PlanMove} (h : Moves fs₀ fs (mv :: rest))
    {m : PlanMove} (hm : m ∈ rest) :
    Apart mv (place m.src) ∧ Apart mv (place m.dst) ∧
      ∀ pid nano, Apart mv (.staging m.dst.components pid nano) := by
  have hmem : m ∈ mv :: rest := List.mem_cons_of_mem _ hm
  have hsources := (List.pairwise_cons.mp h.sources).1 m hm
  have hdestinations := (List.pairwise_cons.mp h.destinations).1 m hm
  refine ⟨⟨hsources.symm, h.apart m hmem mv List.mem_cons_self, by simp [place, Place.beside]⟩,
    ⟨(h.apart mv List.mem_cons_self m hmem).symm, hdestinations.symm, by simp [place, Place.beside]⟩,
    fun pid nano => ⟨by simp [place], by simp [place], fun hbeside => ?_⟩⟩
  exact hdestinations (congrArg Place.path (Option.some.inj hbeside).symm)

/-- **The later moves wait** while one is made: it has changed nothing of theirs, as no two moves
share a place. -/
theorem Moves.tail {fs₀ fs₁ : Fs} {rest : List PlanMove} (h : Moves fs₀ fs (mv :: rest))
    (hframe : Frame fs fs₁ mv) : Moves fs₀ fs₁ rest where
  sources := (List.pairwise_cons.mp h.sources).2
  destinations := (List.pairwise_cons.mp h.destinations).2
  apart m hm m' hm' := h.apart m (List.mem_cons_of_mem _ hm) m' (List.mem_cons_of_mem _ hm')
  waits m hm := by
    obtain ⟨hsrc, hdst, hstaging⟩ := h.apart_of_mem hm
    have hwaits := h.waits m (List.mem_cons_of_mem _ hm)
    refine ⟨⟨hwaits.ne, hwaits.source.congr (hframe _ hsrc), fun pid nano => ?_⟩, ?_, ?_⟩
    · exact (hwaits.staging pid nano).congr (hframe _ (hstaging pid nano))
    · rw [hframe _ hsrc, hwaits.src]
    · rw [hframe _ hdst, hwaits.dst]

/-- **The loop**: how far a plan gets, and that a place which none of its moves has to do with stays
as it is. -/
theorem applyMoves_progress {attempts : ℕ → Attempt} {fs₀ : Fs} {i : ℕ} {moves : List PlanMove}
    (hmoves : Moves fs₀ fs moves) :
    Progress platform links attempts fs₀ (applyMoves platform links attempts i moves fs).1 i fs moves
        (applyMoves platform links attempts i moves fs).2 ∧
      ∀ q : Place, (∀ m ∈ moves, Apart m q) →
        (applyMoves platform links attempts i moves fs).1 q = fs q := by
  induction moves generalizing i fs with
  | nil => exact ⟨.finished, fun q _ => rfl⟩
  | cons mv rest ih =>
      have hwaits := hmoves.waits mv List.mem_cons_self
      have hreplaced := @replaced_externalReplace platform links (attempts i) fs mv hwaits.toReady
      unfold applyMoves
      generalize hrun : externalReplace platform links (attempts i) fs mv.src mv.dst = outcome
        at hreplaced
      cases hreplaced with
      | @installed fs₁ hsucc hinst hframe =>
          obtain ⟨hprogress, hrest⟩ := ih (i := i + 1) (hmoves.tail hframe)
          simp only
          -- no later move touches this destination
          have hdone := hrest (place mv.dst) fun m hm =>
            ⟨(hmoves.apart m (List.mem_cons_of_mem _ hm) mv List.mem_cons_self).symm,
              (List.pairwise_cons.mp hmoves.destinations).1 m hm, by simp [place, Place.beside]⟩
          refine ⟨.installed hsucc ?_ (by rw [hrun]; exact hprogress), fun q hq => ?_⟩
          · obtain ⟨node, node', hnode, hnode', hcontent⟩ := hinst
            exact ⟨node, node', hwaits.src ▸ hnode, hdone.trans hnode', hcontent⟩
          · rw [hrest q fun m hm => hq m (List.mem_cons_of_mem _ hm), hframe q (hq mv List.mem_cons_self)]
      | @kept fs₁ e hsucc hloses hkept hframe =>
          refine ⟨.kept hsucc hloses fun m hm => ?_, fun q hq => hframe q (hq mv List.mem_cons_self)⟩
          rcases List.mem_cons.mp hm with rfl | hm
          · exact hkept.trans hwaits.dst
          · exact ((hmoves.tail hframe).waits m hm).dst
      | @lost fs₁ e hsucc hloses hold hlost hframe =>
          exact ⟨.lost hloses (hwaits.dst ▸ hold) hlost, fun q hq => hframe q (hq mv List.mem_cons_self)⟩

variable {attempts : ℕ → Attempt} {fs₀ fs' : Fs} {i : ℕ} {moves : List PlanMove}
  {outcome : Except (List String) Unit}

/-- A safe plan leaves what it must, as the one move that failed took nothing away. -/
theorem Progress.guarantee (h : Progress platform links attempts fs₀ fs' i fs moves outcome)
    (hsafe : Safe platform links attempts i fs moves) : Guarantee fs₀ fs' moves outcome := by
  induction h with
  | finished => exact fun m hm => by cases hm
  | @installed i fs mv rest outcome hsucc hdst hrest ih =>
      have hih := ih (hsafe.2 hsucc)
      cases outcome with
      | ok u =>
          intro m hm
          rcases List.mem_cons.mp hm with rfl | hm
          · exact hdst
          · exact hih m hm
      | error e =>
          obtain ⟨done, mv', rest', cause, rfl, rfl, hdone, hkept⟩ := hih
          refine ⟨mv :: done, mv', rest', cause, rfl, rfl, ?_, hkept⟩
          intro m hm
          rcases List.mem_cons.mp hm with rfl | hm
          · exact hdst
          · exact hdone m hm
  | @kept i fs mv rest cause hsucc hloses hkept =>
      exact ⟨[], mv, rest, cause, rfl, rfl, fun m hm => (by cases hm), hkept⟩
  | lost hloses hold hdst => exact absurd hloses hsafe.1

/-- A plan that is not safe leaves a destination without its binary. -/
theorem Progress.exists_missing (h : Progress platform links attempts fs₀ fs' i fs moves outcome)
    (hnotSafe : ¬ Safe platform links attempts i fs moves) :
    ∃ m ∈ moves, fs₀ (place m.dst) ≠ none ∧ fs' (place m.dst) = none := by
  induction h with
  | finished => exact absurd trivial hnotSafe
  | @installed i fs mv rest outcome hsucc hdst hrest ih =>
      obtain ⟨m, hm, hmissing⟩ := ih fun hsafe => hnotSafe ⟨hsucc.not_losesOld, fun _ => hsafe⟩
      exact ⟨m, List.mem_cons_of_mem _ hm, hmissing⟩
  | kept hsucc hloses hkept => exact absurd ⟨hloses, fun h => absurd h hsucc⟩ hnotSafe
  | @lost i fs mv rest e hloses hold hdst => exact ⟨mv, List.mem_cons_self, hold, hdst⟩

/-- What is installed is there, and what is kept is there if it was. -/
theorem Guarantee.not_missing {α : Type} {outcome : Except (List String) α}
    (h : Guarantee fs₀ fs' moves outcome) {m : PlanMove} (hm : m ∈ moves)
    (hold : fs₀ (place m.dst) ≠ none) : fs' (place m.dst) ≠ none := by
  have hcases : Installed fs₀ fs' m ∨ Kept fs₀ fs' m := by
    cases outcome with
    | ok u => exact Or.inl (h m hm)
    | error e =>
        obtain ⟨done, mv, rest, cause, rfl, -, hdone, hkept⟩ := h
        exact (List.mem_append.mp hm).imp (hdone m) (hkept m)
  rcases hcases with ⟨node, node', -, hnode', -⟩ | hkept
  · rw [hnode']
    simp
  · rw [hkept]
    exact hold

/-- **When a failed update leaves every binary in its place**: exactly if no move that is reached takes
the old binary away and brings no new one. This is so whatever the paths hold, links among them, for every
plan as the updater writes it, on every platform and whichever operations fail. -/
theorem guarantee_iff_safe (platform : Platform) (links : Links) (attempts : ℕ → Attempt)
    (paths : Bool × List (List Char) → Option Node) (plan : Plan)
    (h : plan.WellFormed (Fs.ofPaths paths)) :
    Guarantee (Fs.ofPaths paths)
        (applyPlan platform links attempts (Fs.ofPaths paths) (.ok plan)).1 plan.moves
        (applyPlan platform links attempts (Fs.ofPaths paths) (.ok plan)).2 ↔
      Safe platform links attempts 0 (Fs.ofPaths paths) plan.moves := by
  obtain ⟨hprogress, -⟩ := @applyMoves_progress platform links _ attempts _ 0 _ h.moves
  constructor
  · intro hguarantee
    by_contra hnotSafe
    obtain ⟨m, hm, hold, hmissing⟩ := hprogress.exists_missing hnotSafe
    exact hguarantee.not_missing hm hold hmissing
  · intro hsafe
    have hguarantee := hprogress.guarantee hsafe
    unfold applyPlan
    simp only
    generalize applyMoves platform links attempts 0 plan.moves _ = result at hguarantee ⊢
    obtain ⟨fs', outcome⟩ := result
    cases outcome with
    | ok u => exact hguarantee
    | error e => exact hguarantee

/-! ### A full disk -/

/-- A plan with one binary, which is on another drive than the download. -/
def onePlan : Plan := ⟨"v0.2.0", [⟨⟨"temp/synbadd.exe"⟩, ⟨"install/synbadd.exe"⟩⟩]⟩

/-- The downloaded binary, and this where the old one is to be found. -/
def besides (old : Node) : Bool × List (List Char) → Option Node := fun p =>
  if p = PathBuf.components ⟨"temp/synbadd.exe"⟩ then some (.file [2] 0)
  else if p = PathBuf.components ⟨"install/synbadd.exe"⟩ then some old
  else if p = PathBuf.components ⟨"store/synbadd.exe"⟩ then some (.file [1] 0)
  else none

/-- The plan of one binary is well formed, whatever its destination holds. -/
theorem onePlan_wellFormed (old : Node) : onePlan.WellFormed (Fs.ofPaths (besides old)) := by
  refine ⟨List.pairwise_singleton _ _, List.pairwise_singleton _ _, ?_, ?_⟩
  · intro m hm m' hm'
    rw [List.mem_singleton.mp hm, List.mem_singleton.mp hm']
    decide
  · intro m hm
    rw [List.mem_singleton.mp hm]
    exact noLink_of_isRegular rfl

/-- Links are read as paths, and no more than 63 are followed. -/
def asPaths : Links := ⟨fun _ text => place ⟨text⟩, 63⟩

/-- Every operation works but the rename, which does not cross drives, and the copy, for which there is
no space. -/
def fullDisk : Attempt where
  pid := 0
  asideNano := 0
  stagingNano := 1
  stagedAppNano := 2
  oldAppNano := 3
  renameAside := none
  rename := some "The system cannot move the file to a different disk drive."
  chmod := true
  copy := some "There is not enough space on the disk."
  written := some ([], 0)
  renameStaging := none
  copyTree := fun _ => none
  swapOut := none
  swapIn := none
  restore := none
  left := none

/-- **A full disk leaves a Windows install without its binary**, be it a file or a link to one. -/
theorem guarantee_fails :
    ¬ ∀ (platform : Platform) (links : Links) (attempts : ℕ → Attempt)
      (paths : Bool × List (List Char) → Option Node) (plan : Plan),
        plan.WellFormed (Fs.ofPaths paths) →
          Guarantee (Fs.ofPaths paths)
            (applyPlan platform links attempts (Fs.ofPaths paths) (.ok plan)).1 plan.moves
            (applyPlan platform links attempts (Fs.ofPaths paths) (.ok plan)).2 := by
  intro h
  have hguarantee := h .windows asPaths (fun _ => fullDisk) _ _ (onePlan_wellFormed (.file [1] 0))
  have hold : Fs.ofPaths (besides (.file [1] 0)) (place ⟨"install/synbadd.exe"⟩) ≠ none :=
    Option.isSome_iff_ne_none.mp (by decide)
  have hmissing : (applyPlan .windows asPaths (fun _ => fullDisk)
      (Fs.ofPaths (besides (.file [1] 0))) (.ok onePlan)).1 (place ⟨"install/synbadd.exe"⟩) = none :=
    Option.isNone_iff_eq_none.mp (by decide)
  exact hguarantee.not_missing (m := ⟨⟨"temp/synbadd.exe"⟩, ⟨"install/synbadd.exe"⟩⟩)
    List.mem_cons_self hold hmissing

/-- A link to the binary is lost as the binary is. -/
example : (applyPlan .windows asPaths (fun _ => fullDisk)
    (Fs.ofPaths (besides (.symlink "store/synbadd.exe"))) (.ok onePlan)).1
      (place ⟨"install/synbadd.exe"⟩) = none :=
  Option.isNone_iff_eq_none.mp (by decide)

/-- On Linux the same full disk leaves the old binary. -/
theorem guarantee_iff_safe_linux :
    onePlan.WellFormed (Fs.ofPaths (besides (.file [1] 0))) ∧
      (Guarantee (Fs.ofPaths (besides (.file [1] 0)))
          (applyPlan .linux asPaths (fun _ => fullDisk) (Fs.ofPaths (besides (.file [1] 0)))
            (.ok onePlan)).1 onePlan.moves
          (applyPlan .linux asPaths (fun _ => fullDisk) (Fs.ofPaths (besides (.file [1] 0)))
            (.ok onePlan)).2 ↔
        Safe .linux asPaths (fun _ => fullDisk) 0 (Fs.ofPaths (besides (.file [1] 0)))
          onePlan.moves) :=
  ⟨onePlan_wellFormed _, guarantee_iff_safe .linux asPaths (fun _ => fullDisk) _ onePlan
    (onePlan_wellFormed _)⟩

end Install

end Synbad
