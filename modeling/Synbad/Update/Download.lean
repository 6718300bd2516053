import Mathlib.Data.List.Nodup
import Synbad.Lib.Run
import Synbad.Update.Install
import Synbad.Update.Release

/-! # Downloading an update and putting it in place

`download_and_apply` of `synbad-update/src/lib.rs` on Linux, as the steps of a thread: the archive is
downloaded and extracted, and the two binaries are looked for in it; the sibling of the running binary is
replaced first and the running one last, by the thread itself or by a helper with the rights to do so. Any
operation may fail, and between any two the rest of the program goes on.

The `self_replace` crate, which swaps the running binary, is a parameter: what is relied on is that a call
swaps a copy of the whole source in or changes nothing of the binary. An archive is what extracting it has
left behind, in a directory of the thread's own (`Extracted`).

What is proved here is about one step: what a replacement does to the file it is for, and that it leaves
all others as they are but for the names an update makes for itself (`Replaces`, `Elsewhere`). The
sibling, the running binary and a move of the helper are replaced by three different functions of the
source, and the three have that one description. -/

namespace Synbad

namespace Update

open Install (Fs Place place Links PlanMove Attempt isRegular isFile NoLink Plain rename copy
  ensureExecutable externalReplace)

/-! ## Names -/

/-- `str::rsplit_once`: what is before and after the last such character, if there is one. -/
def rsplitOnce (c : Char) (s : List Char) : Option (List Char × List Char) :=
  let after := (s.reverse.takeWhile (· ≠ c)).reverse
  if after.length = s.length then none else some (s.take (s.length - after.length - 1), after)

/-- `Path::file_stem`, of the name: what is before its last dot, unless that is at its start. -/
def fileStem (name : List Char) : List Char :=
  match rsplitOnce '.' name with
  | none => name
  | some (before, _) => if before = [] then name else before

/-- `Path::with_extension`: the last component gets this extension in place of its own. -/
def withExtension (p : Bool × List (List Char)) (extension : List Char) : Bool × List (List Char) :=
  match p.2.getLast? with
  | none => p
  | some name => (p.1, p.2.dropLast ++ [fileStem name ++ '.' :: extension])

/-- `sibling_basename`, of the name of the running binary: the other one of the two, with `.exe` if
this one has it. -/
def siblingBasename (name : List Char) : List Char :=
  -- what follows the last slash or backslash
  let trimmed := (name.reverse.takeWhile fun c => c ≠ '/' ∧ c ≠ Char.ofNat 92).reverse
  let (stem, ext) := match rsplitOnce '.' trimmed with
    | some (s, e) => if e = "exe".toList then (s, ".exe".toList) else (trimmed, [])
    | none => (trimmed, [])
  let other := if stem = "synbad-gui".toList then "synbadd".toList else "synbad-gui".toList
  other ++ ext

/-- `str::eq_ignore_ascii_case`: equal but for the case of the ASCII letters. -/
def eqIgnoreCase (s t : List Char) : Bool := s.map Char.toLower == t.map Char.toLower

/-- The extension of what replaces a sibling, until it does. -/
def stagingExtension : List Char := "synbad-update.new".toList

/-- `self_replace::self_replace`, as the crate documents it: a call swaps a copy of the source, a file, in
for the running binary, or fails and leaves the binary alone. Whatever else is there stays; a file that the
crate makes for itself may be left where there was nothing. How each call goes is up to the machine, so
calls are numbered. -/
structure SelfReplace (links : Links) where
  call : ℕ → Fs → PathBuf → PathBuf → Fs × Option String
  swapped : ∀ {k fs source exe fs'}, call k fs source exe = (fs', none) →
    ∃ bytes mode mode', Install.stat links fs (place source) = some (.file bytes mode) ∧
      fs' (place exe) = some (.file bytes mode')
  kept : ∀ {k fs source exe fs' e}, call k fs source exe = (fs', some e) →
    fs' (place exe) = fs (place exe)
  others : ∀ k fs source exe p, p ≠ place exe → (call k fs source exe).1 p = fs p ∨
    (fs p = none ∧ isRegular ((call k fs source exe).1 p) = true)

/-- A `self_replace` with these faults, which copies the file and its mode. -/
def SelfReplace.copying (links : Links) (faults : ℕ → Option String) : SelfReplace links where
  call k fs source exe :=
    match faults k, Install.stat links fs (place source) with
    | none, some (.file bytes mode) =>
        (Function.update fs (place exe) (some (.file bytes mode)), none)
    | none, _ => (fs, some "No such file or directory (os error 2)")
    | some e, _ => (fs, some e)
  swapped {k fs source exe fs'} h := by
    split at h
    · next bytes mode _ hstat =>
      cases h
      exact ⟨bytes, mode, mode, hstat, Function.update_self ..⟩
    · cases h
    · cases h
  kept {k fs source exe fs' e} h := by
    split at h
    · cases h
    · cases h
      rfl
    · cases h
      rfl
  others k fs source exe p hp := by
    left
    split
    · exact Function.update_of_ne hp _ _
    · rfl
    · rfl

/-- Where Synbad is installed: the running binary and the place of the other one, and the machine: how it
reads links and how `self_replace` goes there. -/
structure Installation where
  rooted : Bool
  dir : List (List Char)
  name : List Char
  exe : PathBuf
  exe_components : exe.components = (rooted, dir ++ [name])
  sibling : PathBuf
  sibling_components : sibling.components = (rooted, dir ++ [siblingBasename name])
  links : Links
  selfReplace : SelfReplace links

namespace Installation

/-- The window as a package installs it, in `/usr/bin` with the daemon beside it. -/
def packaged : Installation where
  rooted := true
  dir := ["usr".toList, "bin".toList]
  name := "synbad-gui".toList
  exe := ⟨"/usr/bin/synbad-gui"⟩
  exe_components := by decide
  sibling := ⟨"/usr/bin/synbadd"⟩
  sibling_components := by decide
  links := ⟨fun _ text => place ⟨text⟩, 40⟩
  selfReplace := .copying _ fun _ => none

variable (inst : Installation)

/-- The name of the sibling, as it follows from that of the running binary. -/
def siblingName : List Char := siblingBasename inst.name

/-- Where the sibling is staged when it cannot be renamed into place: next to it. -/
def staging : Place := .path (withExtension inst.sibling.components stagingExtension)

example : packaged.staging =
    .path (true, ["usr".toList, "bin".toList, "synbadd.synbad-update.new".toList]) := by decide

/-- `helper_path_for`: the daemon, if it is the running binary or there is one next to that, and else the
running binary. -/
def helper (fs : Fs) : Bool × List (List Char) :=
  let stem := (".exe".toList.isSuffixOf? inst.name).getD inst.name
  let candidate := (inst.rooted, inst.dir ++ ["synbadd".toList])
  if stem = "synbadd".toList then inst.exe.components
  else if isFile inst.links fs (.path candidate) then candidate
  else inst.exe.components

/-- A name that an update makes for itself: where the sibling is staged, or where a helper copies to. -/
def Temporary (q : Place) : Prop := q = inst.staging ∨ ∃ dest pid nano, q = .staging dest pid nano

/-- **Synbad is installed**: the running binary goes by one of the two names, both binaries are there as
files of their own, and under the names that an update makes for itself there is nothing, or a file that an
earlier one has left. -/
structure Installed (fs : Fs) : Prop where
  named : inst.name = "synbad-gui".toList ∨ inst.name = "synbadd".toList
  exe : isRegular (fs (place inst.exe)) = true
  sibling : isRegular (fs (place inst.sibling)) = true
  temporary : ∀ q, inst.Temporary q → Plain fs q

/-- The package has put its two binaries in place, and nothing else. -/
example : packaged.Installed (Fs.ofPaths fun p =>
    if p = packaged.exe.components ∨ p = packaged.sibling.components then some (.file [] 0o755)
    else none) where
  named := Or.inl rfl
  exe := by decide
  sibling := by decide
  temporary q hq := by
    rcases hq with rfl | ⟨dest, pid, nano, rfl⟩
    · exact Or.inl (Option.isNone_iff_eq_none.mp (by decide))
    · exact Or.inl rfl

end Installation

/-! ## The archive -/

/-- What an archive has been extracted to: the files as `walk` comes across them, up to the first that
cannot be read. They are in a directory of their own. -/
structure Extracted (inst : Installation) where
  files : List (PathBuf × Install.Node)
  nodup : (files.map fun f => place f.1).Nodup
  apart : ∀ f ∈ files, place f.1 ≠ place inst.exe ∧ place f.1 ≠ place inst.sibling ∧
    place f.1 ≠ inst.staging

/-- `find_binary`: the first file of the archive with this name, in whatever directory and whatever
case. -/
def findBinary (files : List (PathBuf × Install.Node)) (name : List Char) : Option PathBuf :=
  (files.find? fun f =>
    isRegular (some f.2) && (f.1.components.2.getLast?.map (eqIgnoreCase · name)).getD false).map Prod.fst

namespace Extracted

variable {inst : Installation}

/-- What the archive has for a place, if it has something. -/
def get (x : Extracted inst) (p : Place) : Option Install.Node :=
  (x.files.find? fun f => place f.1 = p).map Prod.snd

/-- The file system with the archive extracted: where it has something that is what is there. -/
def onto (x : Extracted inst) (fs : Fs) : Fs := fun p =>
  match x.get p with
  | some node => some node
  | none => fs p

end Extracted

/-! ## Replacing a binary -/

/-- A path's text, as an error quotes it. -/
def pathText (p : Bool × List (List Char)) : String :=
  (if p.1 then "/" else "") ++ "/".intercalate (p.2.map String.ofList)

/-- `replace_sibling`: by a rename, and if that fails by a copy next to it that is renamed. -/
def replaceSibling (links : Links) (a : Attempt) (fs : Fs) (source dest : PathBuf) :
    Fs × Except (List String) Unit :=
  match rename fs (place source) (place dest) a.rename with
  | .ok fs => (ensureExecutable links fs (place dest) a.chmod, .ok ())
  | .error _ =>
      let staging := withExtension dest.components stagingExtension
      match copy links fs (place source) (.path staging) a.written a.copy with
      | (fs, .error e) => (fs, .error ["copy to staging " ++ pathText staging, e])
      | (fs, .ok ()) =>
          let fs := ensureExecutable links fs (.path staging) a.chmod
          match rename fs (.path staging) (place dest) a.renameStaging with
          | .error e => (fs, .error ["rename staging onto " ++ dest.text, e])
          | .ok fs => (fs, .ok ())

/-- What replaces the running binary: `self_replace`, and `ensure_executable` after it. -/
def replaceSelf (inst : Installation) (call : ℕ) (chmod : Bool) (fs : Fs) (source : PathBuf) :
    Fs × Except (List String) Unit :=
  match inst.selfReplace.call call fs source inst.exe with
  | (fs, none) => (ensureExecutable inst.links fs (place inst.exe) chmod, .ok ())
  | (fs, some e) => (fs, .error ["replace self", e])

/-! ## The thread -/

/-- `Progress` and what ends it: what a worker sends. -/
inductive WorkerMsg where
  | checked (result : Except String CheckResult)
  | stage (label : String)
  | download (downloaded total : ℕ)
  /-- `Done`, with the tag and whether a helper was used. -/
  | done (result : Except String (String × Bool))
  deriving DecidableEq

/-- Where a worker stands: a check has one stage, and an installation those of
`download_and_apply`. -/
inductive WorkerStage (inst : Installation) where
  | checking
  | probing (info : UpdateInfo)
  | preparing (info : UpdateInfo) (writable : Bool)
  | downloading (info : UpdateInfo) (writable : Bool) (downloaded : ℕ)
  | extracting (info : UpdateInfo) (writable : Bool)
  | looking (info : UpdateInfo) (writable : Bool) (x : Extracted inst)
  | replacingSibling (info : UpdateInfo) (newSelf newSibling : PathBuf)
  | replacingSelf (info : UpdateInfo) (newSelf : PathBuf)
  | planning (info : UpdateInfo) (moves : List PlanMove)
  | elevating (info : UpdateInfo) (moves : List PlanMove)
  /-- The helper, with the number of moves it has made and those it has still to make. -/
  | applying (info : UpdateInfo) (made : ℕ) (moves : List PlanMove)

/-- How the next operation of a worker goes, which the world decides: what is answered, read or
extracted, or which error there is. -/
inductive WorkMove (inst : Installation) where
  | check (releases : Except String (List GhRelease))
  | probe (writable : Bool)
  | op (fault : Option (List String))
  | read (n : Except (List String) ℕ)
  | extract (x : Except (List String) (Extracted inst))
  | replace (a : Attempt)
  | replaceSelf (call : ℕ) (chmod : Bool)

/-- What a step of a worker comes to: how it goes on, what it sends, and the files then. -/
structure Worked (inst : Installation) where
  /-- Where the worker goes on, unless it has ended with this step. -/
  stage : Option (WorkerStage inst)
  sends : List WorkerMsg
  fs : Fs
  unpacks : Option (UpdateInfo × Extracted inst)

section Work

variable {V : Type} [LinearOrder V] (parse : String → Option V) (inst : Installation)
  (current target : String)

/-- The worker goes on at this stage, after these messages. -/
def goesOn (fs : Fs) (stage : WorkerStage inst) (sends : List WorkerMsg) : Worked inst :=
  ⟨some stage, sends, fs, none⟩

/-- The worker ends with an error, which it sends with its causes. -/
def fails (fs : Fs) (e : List String) : Worked inst :=
  ⟨none, [.done (.error (": ".intercalate e))], fs, none⟩

/-- The worker ends well, and sends the tag and whether a helper was used. -/
def succeeds (fs : Fs) (info : UpdateInfo) (elevated : Bool) : Worked inst :=
  ⟨none, [.done (.ok (info.tag, elevated))], fs, none⟩

/-- The plan: the sibling first, if it is installed and in the archive, and the running binary last. -/
def planMoves (newSelf : PathBuf) (newSibling : Option PathBuf) : List PlanMove :=
  (newSibling.map fun source => ⟨source, inst.sibling⟩).toList ++ [⟨newSelf, inst.exe⟩]

/-- The binaries are looked for, and are to be put in place by the thread or by the helper. -/
def look (fs : Fs) (info : UpdateInfo) (writable : Bool) (x : Extracted inst) : Worked inst :=
  match findBinary x.files inst.name with
  | none => fails inst fs ["release archive did not contain `" ++ String.ofList inst.name ++ "`"]
  | some newSelf =>
      let present := isFile inst.links fs (place inst.sibling)
      let newSibling := if present then findBinary x.files inst.siblingName else none
      if writable then
        match newSibling with
        | some source => goesOn inst fs (.replacingSibling info newSelf source) [.stage "installing"]
        | none => goesOn inst fs (.replacingSelf info newSelf) [.stage "installing"]
      else
        goesOn inst fs (.planning info (planMoves inst newSelf newSibling))
          [.stage "waiting for authorisation"]

/-- The helper makes the next move of its plan, and gives up at the first that fails. -/
def applyMove (fs : Fs) (info : UpdateInfo) (made : ℕ) (a : Attempt) : List PlanMove → Worked inst
  | [] => succeeds inst fs info true
  | mv :: rest =>
      match externalReplace .linux inst.links a fs mv.src mv.dst with
      | (fs, .ok ()) => goesOn inst fs (.applying info (made + 1) rest) []
      | (fs, .error _) => fails inst fs ["pkexec: helper exited with status 1"]

/-- The next step of a worker; a move that is not about its stage changes nothing. -/
def work (fs : Fs) (stage : WorkerStage inst) (move : WorkMove inst) : Worked inst :=
  match stage, move with
  | .checking, .check releases =>
      ⟨none, [.checked (check parse current target releases)], fs, none⟩
  | .probing info, .probe writable => goesOn inst fs (.preparing info writable) [.stage "downloading"]
  | .preparing info writable, .op none => goesOn inst fs (.downloading info writable 0) []
  | .preparing _ _, .op (some e) => fails inst fs e
  | .downloading _ _ _, .read (.error e) => fails inst fs e
  | .downloading info writable _, .read (.ok 0) =>
      goesOn inst fs (.extracting info writable) [.stage "extracting"]
  | .downloading info writable downloaded, .read (.ok n) =>
      goesOn inst fs (.downloading info writable (downloaded + n))
        [.download (downloaded + n) info.assetSize]
  | .extracting _ _, .extract (.error e) => fails inst fs e
  | .extracting info writable, .extract (.ok x) =>
      ⟨some (.looking info writable x), [], x.onto fs, some (info, x)⟩
  | .looking info writable x, .op _ => look inst fs info writable x
  | .replacingSibling info newSelf newSibling, .replace a =>
      match replaceSibling inst.links a fs newSibling inst.sibling with
      | (fs, .ok ()) => goesOn inst fs (.replacingSelf info newSelf) []
      | (fs, .error e) => fails inst fs (("replace sibling binary at " ++ inst.sibling.text) :: e)
  | .replacingSelf info newSelf, .replaceSelf call chmod =>
      match replaceSelf inst call chmod fs newSelf with
      | (fs, .ok ()) => succeeds inst fs info false
      | (fs, .error e) => fails inst fs e
  | .planning info moves, .op none => goesOn inst fs (.elevating info moves) [.stage "installing (elevated)"]
  | .planning _ _, .op (some e) => fails inst fs e
  | .elevating info moves, .op fault =>
      if isFile inst.links fs (.path (inst.helper fs)) then
        match fault with
        | none => goesOn inst fs (.applying info 0 moves) []
        | some e => fails inst fs e
      else
        fails inst fs ["elevation helper not found at `" ++ pathText (inst.helper fs) ++
          "` — the sibling Synbad binary must be installed alongside the running one for in-place updates " ++
          "to system locations"]
  | .applying info made moves, .replace a => applyMove inst fs info made a moves
  | stage, _ => goesOn inst fs stage []

end Work

/-! ## The places of an installation -/

namespace Installation

variable (inst : Installation)

/-- The two binaries do not have one name, not even in another case, and neither has the staged one. -/
theorem names_apart (named : inst.name = "synbad-gui".toList ∨ inst.name = "synbadd".toList) :
    inst.siblingName ≠ inst.name ∧ inst.siblingName.map Char.toLower ≠ inst.name.map Char.toLower ∧
      fileStem inst.siblingName ++ '.' :: stagingExtension ≠ inst.name ∧
      fileStem inst.siblingName ++ '.' :: stagingExtension ≠ inst.siblingName := by
  unfold siblingName
  rcases named with h | h
  · rw [h]
    decide
  · rw [h]
    decide

/-- The sibling is staged next to it, under its name with another extension. -/
theorem staging_eq :
    inst.staging = .path (inst.rooted, inst.dir ++ [fileStem inst.siblingName ++ '.' :: stagingExtension]) := by
  rw [staging, inst.sibling_components, withExtension]
  simp [siblingName]

section Installed

variable {inst} {fs : Fs} (h : inst.Installed fs)

include h

/-- The running binary and its sibling are two files, as their names differ. -/
theorem Installed.exe_ne_sibling : place inst.exe ≠ place inst.sibling := by
  intro heq
  rw [place, place, inst.exe_components, inst.sibling_components] at heq
  simp only [Place.path.injEq, Prod.mk.injEq, true_and, List.append_cancel_left_eq, List.cons.injEq,
    and_true] at heq
  exact (inst.names_apart h.named).1 heq.symm

/-- The running binary is not at the place where its sibling is staged. -/
theorem Installed.exe_ne_staging : place inst.exe ≠ inst.staging := by
  intro heq
  rw [place, inst.exe_components, staging_eq] at heq
  simp only [Place.path.injEq, Prod.mk.injEq, true_and, List.append_cancel_left_eq, List.cons.injEq,
    and_true] at heq
  exact (inst.names_apart h.named).2.2.1 heq.symm

/-- The sibling is staged at a place other than its own. -/
theorem Installed.sibling_ne_staging : place inst.sibling ≠ inst.staging := by
  intro heq
  rw [place, inst.sibling_components, staging_eq] at heq
  simp only [Place.path.injEq, Prod.mk.injEq, true_and, List.append_cancel_left_eq, List.cons.injEq,
    and_true] at heq
  exact (inst.names_apart h.named).2.2.2 heq.symm

/-- What has been staged is a file that a rename may take, and no directory that is in its way. -/
theorem Installed.plain_staging : Plain fs inst.staging := h.temporary _ (Or.inl rfl)

end Installed

end Installation

/-! ## What the archive has -/

section Find

variable {inst : Installation} {x : Extracted inst} {name : List Char} {path : PathBuf}

/-- What is found has the name, in some case. -/
theorem findBinary_name {files : List (PathBuf × Install.Node)} (h : findBinary files name = some path) :
    (path.components.2.getLast?.map (List.map Char.toLower)) = some (name.map Char.toLower) := by
  obtain ⟨f, hf, rfl⟩ := Option.map_eq_some_iff.mp h
  have hname := List.find?_some hf
  rw [Bool.and_eq_true] at hname
  cases hlast : f.1.components.2.getLast? with
  | none => simp [hlast] at hname
  | some last =>
      simp only [hlast, Option.map_some, Option.getD_some, eqIgnoreCase, beq_iff_eq] at hname
      rw [Option.map_some, hname.2]

/-- A file of the archive is where it has been extracted to. -/
theorem get_of_mem {f : PathBuf × Install.Node} (hf : f ∈ x.files) : x.get (place f.1) = some f.2 := by
  unfold Extracted.get
  cases hfind : x.files.find? fun g => place g.1 = place f.1 with
  | none => simpa using List.find?_eq_none.mp hfind f hf
  | some g =>
      have hplace : place g.1 = place f.1 := by simpa using List.find?_some hfind
      have hinj := List.inj_on_of_nodup_map x.nodup (List.mem_of_find?_eq_some hfind) hf hplace
      rw [hinj, Option.map_some]

/-- **What is found is a file of the archive.** -/
theorem findBinary_get (h : findBinary x.files name = some path) :
    ∃ node, x.get (place path) = some node ∧ isRegular (some node) = true := by
  obtain ⟨f, hf, rfl⟩ := Option.map_eq_some_iff.mp h
  have hfile := List.find?_some hf
  rw [Bool.and_eq_true] at hfile
  exact ⟨f.2, get_of_mem (List.mem_of_find?_eq_some hf), hfile.1⟩

/-- What is found is neither where a binary is installed nor where one is staged. -/
theorem findBinary_apart (h : findBinary x.files name = some path) :
    place path ≠ place inst.exe ∧ place path ≠ place inst.sibling ∧ place path ≠ inst.staging := by
  obtain ⟨f, hf, rfl⟩ := Option.map_eq_some_iff.mp h
  exact x.apart f (List.mem_of_find?_eq_some hf)

/-- The two binaries are two files of the archive, as their names differ even where case does not count. -/
theorem findBinary_ne {newSelf newSibling : PathBuf}
    (named : inst.name = "synbad-gui".toList ∨ inst.name = "synbadd".toList)
    (hself : findBinary x.files inst.name = some newSelf)
    (hsibling : findBinary x.files inst.siblingName = some newSibling) : place newSelf ≠ place newSibling := by
  intro h
  have hcomponents : newSelf.components = newSibling.components := by simpa [place] using h
  have hself := findBinary_name hself
  have hsibling := findBinary_name hsibling
  rw [hcomponents, hsibling, Option.some.injEq] at hself
  exact (inst.names_apart named).2.1 hself

/-- Where the archive has nothing, extracting it changes nothing. -/
theorem onto_of_none {fs : Fs} {p : Place} (h : x.get p = none) : x.onto fs p = fs p := by
  rw [Extracted.onto, h]

/-- Where the archive has something, that is what is there once it is extracted. -/
theorem onto_of_some {fs : Fs} {p : Place} {node : Install.Node} (h : x.get p = some node) :
    x.onto fs p = some node := by
  rw [Extracted.onto, h]

/-- Nothing of the archive gets to a name that an update makes for itself. -/
theorem get_temporary {q : Place} (hq : inst.Temporary q) : x.get q = none := by
  rw [Extracted.get, Option.map_eq_none_iff, List.find?_eq_none]
  intro f hf
  rcases hq with rfl | ⟨dest, pid, nano, rfl⟩
  · simpa using (x.apart f hf).2.2
  · simp [place]

/-- Nothing of the archive gets to the installation by itself. -/
theorem get_installed : x.get (place inst.exe) = none ∧ x.get (place inst.sibling) = none := by
  unfold Extracted.get
  constructor
  · rw [Option.map_eq_none_iff, List.find?_eq_none]
    intro f hf
    simpa using (x.apart f hf).1
  · rw [Option.map_eq_none_iff, List.find?_eq_none]
    intro f hf
    simpa using (x.apart f hf).2.1

end Find

/-! ## What a replacement comes to -/

/-- What a place holds, whatever its mode: a directory, a link or a file's bytes. -/
def held (fs : Fs) (p : Place) : Option Install.Node := (fs p).map Install.Node.content

/-- Whether a file stands somewhere does not depend on modes, so it is known from what is held. -/
theorem isRegular_held {fs fs' : Fs} {p q : Place} (h : held fs p = held fs' q) :
    isRegular (fs p) = isRegular (fs' q) := by
  have hcontent : ∀ node : Option Install.Node,
      isRegular (node.map Install.Node.content) = isRegular node := by
    intro node
    cases node with
    | none => rfl
    | some node =>
        cases node with
        | file bytes mode => rfl
        | symlink target => rfl
        | dir mode entries => rfl
  rw [← hcontent (fs p), ← hcontent (fs' q)]
  exact congrArg isRegular h

/-- Whatever there is at other paths stays, but for the place where the sibling is staged, and the names
that an update makes for itself stay free of links and directories. -/
structure Elsewhere (inst : Installation) (fs fs' : Fs) (source dest : PathBuf) : Prop where
  others : ∀ p : PathBuf, place p ≠ place source → place p ≠ place dest → place p ≠ inst.staging →
    fs (place p) ≠ none → fs' (place p) = fs (place p)
  temporary : ∀ q, inst.Temporary q → Plain fs' q

/-- **A binary is replaced by another, or stays.** In both cases whatever there is elsewhere stays
too. -/
inductive Replaces (inst : Installation) (fs : Fs) (source dest : PathBuf) :
    Fs × Except (List String) Unit → Prop
  | ok {fs' : Fs} (hheld : held fs' (place dest) = held fs (place source))
      (frame : Elsewhere inst fs fs' source dest) : Replaces inst fs source dest (fs', .ok ())
  | error {fs' : Fs} {e : List String} (hheld : held fs' (place dest) = held fs (place dest))
      (frame : Elsewhere inst fs fs' source dest) : Replaces inst fs source dest (fs', .error e)

section Replaces

variable {inst : Installation} {a : Attempt} {fs : Fs} {source : PathBuf}

/-- Setting a mode changes no content, of this place or of another. -/
theorem held_ensureExecutable (links : Links) (fs : Fs) (p q : Place) (chmod : Bool) :
    held (ensureExecutable links fs p chmod) q = held fs q := by
  have h := Install.content_chmod true links fs p q chmod
  rwa [if_pos rfl] at h

/-- Where there is no link, no other place gets a mode. -/
theorem ensureExecutable_of_ne {p q : Place} (hp : NoLink fs p) (h : q ≠ p) (links : Links)
    (chmod : Bool) : ensureExecutable links fs p chmod q = fs q := by
  have heq := Install.chmod_of_ne hp h true links chmod
  rwa [if_pos rfl] at heq

/-- A name that an update makes for itself is no path of a plan. -/
theorem temporary_ne {inst : Installation} {p : PathBuf} {q : Place} (hp : place p ≠ inst.staging)
    (hq : inst.Temporary q) : q ≠ place p := by
  rcases hq with rfl | ⟨dest, pid, nano, rfl⟩
  · exact hp.symm
  · simp [place]

/-- **The sibling is replaced** as a whole, by a rename or by way of a copy, or stays. -/
theorem replaces_replaceSibling (h : inst.Installed fs) (hsource : isRegular (fs (place source)) = true)
    (hapart : place source ≠ inst.staging) :
    Replaces inst fs source inst.sibling (replaceSibling inst.links a fs source inst.sibling) := by
  have hstaging : Place.path (withExtension inst.sibling.components stagingExtension) = inst.staging := rfl
  have hlink : NoLink fs (place source) := Install.noLink_of_isRegular hsource
  unfold replaceSibling
  cases hrename : rename fs (place source) (place inst.sibling) a.rename with
  | ok fs₁ =>
      -- a rename takes the whole file along, so only its mode is set afterwards
      obtain ⟨-, -, rfl⟩ := Install.rename_eq_ok.mp hrename
      have hdst : NoLink (Slots.rename fs (place source) (place inst.sibling)) (place inst.sibling) :=
        hlink.congr (Slots.rename_dst ..)
      have hsame : ∀ q, q ≠ place source → q ≠ place inst.sibling →
          ensureExecutable inst.links (Slots.rename fs (place source) (place inst.sibling))
            (place inst.sibling) a.chmod q = fs q := by
        intro q hqs hqd
        rw [ensureExecutable_of_ne hdst hqd, Slots.rename_of_ne hqs hqd]
      refine .ok ?_ ⟨fun p hps hpd _ _ => hsame _ hps hpd, fun q hq => ?_⟩
      · rw [held_ensureExecutable, held, Slots.rename_dst, held]
      · exact (h.temporary q hq).congr
          (hsame q (temporary_ne hapart hq) (temporary_ne h.sibling_ne_staging hq))
  | error e =>
      simp only [hstaging]
      rcases Install.copy_cases h.plain_staging inst.links (place source) a.written a.copy with
        ⟨bytes, mode, hstat, -, -, heq⟩ | ⟨-, fs₁, e, heq, hplain, hsame⟩
      · -- the sibling's own place is touched only by the last rename
        have hfile : fs (place source) = some (.file bytes mode) := by
          rw [← Install.stat_of_noLink hlink, hstat]
        rw [heq]
        simp only
        generalize hcopied : Function.update fs inst.staging (some (.file bytes mode)) = copied
        have hstaged : copied inst.staging = some (.file bytes mode) := by
          rw [← hcopied, Function.update_self]
        have hplain : Plain copied inst.staging := Or.inr (by rw [hstaged]; rfl)
        have hothers : ∀ q, q ≠ inst.staging →
            ensureExecutable inst.links copied inst.staging a.chmod q = fs q := by
          intro q hq
          rw [ensureExecutable_of_ne hplain.noLink hq, ← hcopied, Function.update_of_ne hq]
        have htemporary : ∀ q, inst.Temporary q →
            Plain (ensureExecutable inst.links copied inst.staging a.chmod) q := by
          intro q hq
          by_cases hqs : q = inst.staging
          · subst hqs
            exact hplain.ensureExecutable hplain.noLink inst.links a.chmod
          · exact (h.temporary q hq).congr (hothers q hqs)
        cases hin : rename (ensureExecutable inst.links copied inst.staging a.chmod) inst.staging
            (place inst.sibling) a.renameStaging with
        | ok fs₃ =>
            -- a copy that is complete is renamed into place, as whole as a file that is moved
            obtain ⟨-, -, rfl⟩ := Install.rename_eq_ok.mp hin
            refine .ok ?_ ⟨fun p _ hpd hpg _ => ?_, fun q hq => ?_⟩
            · have hheld := held_ensureExecutable inst.links copied inst.staging inst.staging a.chmod
              rw [held, held, hstaged] at hheld
              rw [held, Slots.rename_dst, hheld, held, hfile]
            · rw [Slots.rename_of_ne hpg hpd, hothers _ hpg]
            · by_cases hqs : q = inst.staging
              · rw [hqs]
                exact Or.inl (Slots.rename_src h.sibling_ne_staging.symm)
              · exact (htemporary q hq).congr
                  (Slots.rename_of_ne hqs (temporary_ne h.sibling_ne_staging hq))
        | error e =>
            -- the copy stays next to the sibling, under the name an update makes for itself
            refine .error ?_ ⟨fun p _ _ hpg _ => hothers _ hpg, htemporary⟩
            rw [held, hothers _ h.sibling_ne_staging, held]
      · rw [heq]
        -- an incomplete copy is left at the staging place at most
        refine .error ?_ ⟨fun p _ _ hpg _ => hsame _ hpg, fun q hq => ?_⟩
        · rw [held, hsame _ h.sibling_ne_staging, held]
        · by_cases hqs : q = inst.staging
          · rwa [hqs]
          · exact (h.temporary q hq).congr (hsame q hqs)

/-- **The running binary is replaced** as a whole, or stays. -/
theorem replaces_replaceSelf (h : inst.Installed fs) (hsource : isRegular (fs (place source)) = true)
    (call : ℕ) (chmod : Bool) :
    Replaces inst fs source inst.exe (replaceSelf inst call chmod fs source) := by
  have hothers := inst.selfReplace.others call fs source inst.exe
  -- where there was something it stays, and what is new is a file
  have hsame : ∀ q, q ≠ place inst.exe → fs q ≠ none →
      (inst.selfReplace.call call fs source inst.exe).1 q = fs q := by
    intro q hq hsome
    rcases hothers q hq with heq | ⟨hnone, -⟩
    · exact heq
    · exact absurd hnone hsome
  have htemporary : ∀ q, inst.Temporary q →
      Plain (inst.selfReplace.call call fs source inst.exe).1 q := by
    intro q hq
    rcases hothers q (temporary_ne h.exe_ne_staging hq) with heq | ⟨-, hfile⟩
    · exact (h.temporary q hq).congr heq
    · exact Or.inr hfile
  unfold replaceSelf
  cases hcall : inst.selfReplace.call call fs source inst.exe with
  | mk fs' r =>
      rw [hcall] at hsame htemporary
      dsimp only at hsame htemporary
      cases r with
      | none =>
          obtain ⟨bytes, mode, mode', hstat, hexe⟩ := inst.selfReplace.swapped hcall
          have hfile : fs (place source) = some (.file bytes mode) := by
            rw [← Install.stat_of_noLink (Install.noLink_of_isRegular hsource), hstat]
          have hdst : NoLink fs' (place inst.exe) := Install.noLink_of_isRegular (by rw [hexe]; rfl)
          refine .ok ?_ ⟨fun p _ hpd _ hsome => ?_, fun q hq => ?_⟩
          · rw [held_ensureExecutable, held, hexe, held, hfile]
            rfl
          · rw [ensureExecutable_of_ne hdst hpd, hsame _ hpd hsome]
          · exact (htemporary q hq).congr
              (ensureExecutable_of_ne hdst (temporary_ne h.exe_ne_staging hq) _ _)
      | some e =>
          refine .error ?_ ⟨fun p _ hpd _ hsome => hsame _ hpd hsome, htemporary⟩
          rw [held, inst.selfReplace.kept hcall, held]

/-- **The helper replaces a binary**, which on Linux is one rename or one by way of a copy. -/
theorem replaces_externalReplace {dest : PathBuf} (h : inst.Installed fs)
    (hsource : isRegular (fs (place source)) = true) (hne : place source ≠ place dest)
    (hapart : place source ≠ inst.staging) (hdest : place dest ≠ inst.staging) :
    Replaces inst fs source dest (externalReplace .linux inst.links a fs source dest) := by
  have hready : Install.Ready fs ⟨source, dest⟩ :=
    ⟨hne, Install.noLink_of_isRegular hsource,
      fun pid nano => h.temporary _ (Or.inr ⟨dest.components, pid, nano, rfl⟩)⟩
  have hreplaced := @Install.replaced_externalReplace .linux inst.links a fs ⟨source, dest⟩ hready
  have hstaging := @Install.plain_externalReplace inst.links a fs ⟨source, dest⟩ hready
  dsimp only at hreplaced hstaging
  generalize externalReplace .linux inst.links a fs source dest = r at hreplaced hstaging
  have helsewhere : Install.Frame fs r.1 ⟨source, dest⟩ → Elsewhere inst fs r.1 source dest := by
    intro frame
    refine ⟨fun p hps hpd _ _ => frame _ ⟨hps, hpd, by simp [place, Place.beside]⟩, fun q hq => ?_⟩
    have hqs := temporary_ne hapart hq
    have hqd := temporary_ne hdest hq
    by_cases hbeside : q.beside = some dest.components
    · rcases hq with rfl | ⟨dest', pid, nano, rfl⟩
      · cases hbeside
      · obtain rfl := Option.some.inj hbeside
        exact hstaging pid nano
    · exact (h.temporary q hq).congr (frame q ⟨hqs, hqd, hbeside⟩)
  cases hreplaced with
  | installed hsucceeds hdst frame =>
      obtain ⟨node, node', hsource, hdest, hcontent⟩ := hdst
      refine .ok ?_ (helsewhere frame)
      rw [held, held, hdest, hsource, Option.map_some, Option.map_some, hcontent]
  | kept hsucceeds hloses hdst frame =>
      refine .error ?_ (helsewhere frame)
      rw [held, held, hdst]
  | lost hsucceeds hloses hold hdst frame =>
      -- the old binary is lost on the other platforms only
      rcases hloses with ⟨⟨hmac, -⟩, -⟩ | ⟨-, hwindows, -⟩
      · cases hmac
      · cases hwindows

end Replaces

end Update

end Synbad
