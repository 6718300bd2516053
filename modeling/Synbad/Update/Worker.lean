import Synbad.Update.Download

/-! # What an update does to the binaries

Each of the two binaries is at all times the one that was installed first or one that an update has
found in its archive, as a whole. The running one is replaced last: it is never from a later update
than its sibling, unless the archive of that update had no sibling.

`Placed` says so of the files, with the number of the update each binary is from, and `AtWork` says
what the thread at work has to know to keep it so: before the sibling is done with, the running binary
is not touched, and what was found in the archive is still where it was extracted to. One step of a
thread preserves the two (`Went`, `went_work`), whatever fails in it; the proof goes stage by stage,
and at the two stages that touch a binary it rests on what a replacement comes to (`Replaces`), not on
how it is made.

The last section is about the plan for the helper. Every plan is well formed, which is what
`apply_plan` needs for its promises, and the helper's steps taken one after the other are its loop. -/

namespace Synbad

namespace Update

open Install (Fs Place place PlanMove Attempt isRegular isFile)

/-! ## Where the binaries are from -/

/-- The files of the machine, with the archive that each thread has extracted so far: a thread has one
update to install, and extracts its archive once. -/
structure Files (inst : Installation) where
  unpacked : ℕ → Option (UpdateInfo × Extracted inst)
  fs : Fs

namespace Files

variable {inst : Installation} (f : Files inst) (fs₀ : Fs)

/-- A binary is the first one, or the one of this name that a thread has found in its archive: they are
counted from nought. -/
inductive From (name : List Char) (dest : PathBuf) : ℕ → Prop
  | first (h : held f.fs (place dest) = held fs₀ (place dest)) : From name dest 0
  | found {c : ℕ} {info : UpdateInfo} {x : Extracted inst} {path : PathBuf}
      (hunpacked : f.unpacked c = some (info, x)) (hfound : findBinary x.files name = some path)
      (h : held f.fs (place dest) = (x.get (place path)).map Install.Node.content) : From name dest (c + 1)

/-- The archive of this thread, which has extracted one, has no file under the sibling's name. -/
def Lacks (c : ℕ) : Prop :=
  ∃ info x, f.unpacked c = some (info, x) ∧ findBinary x.files inst.siblingName = none

/-- **The binaries**: where the running one is from and where its sibling, which is not from an earlier
update unless the archive had none, and both are installed still. -/
structure Placed (o o' : ℕ) : Prop where
  exe : f.From fs₀ inst.name inst.exe o
  sibling : f.From fs₀ inst.siblingName inst.sibling o'
  order : o ≤ o' ∨ ∃ c, o = c + 1 ∧ f.Lacks c
  installed : inst.Installed f.fs

/-- What this thread has found under a name is still where it was extracted to. -/
def Source (c : ℕ) (info : UpdateInfo) (name : List Char) (path : PathBuf) : Prop :=
  ∃ x, f.unpacked c = some (info, x) ∧ findBinary x.files name = some path ∧
    f.fs (place path) = x.get (place path)

/-- The sibling is replaced, or there is none to replace it with. -/
def SiblingDone (c : ℕ) (o' : ℕ) : Prop := o' = c + 1 ∨ (f.Lacks c ∧ o' ≤ c)

/-- How far the plan of a thread is that is left with these moves: both are to come, the last one is,
or none; and where the binaries are from then. -/
inductive Planned (c : ℕ) (info : UpdateInfo) (o o' : ℕ) : List PlanMove → Prop
  | both {s b : PathBuf} (hself : f.Source c info inst.name s) (hsibling : f.Source c info inst.siblingName b)
      (ho : o ≤ c) (ho' : o' ≤ c) : Planned c info o o' (planMoves inst s (some b))
  | last {s : PathBuf} (hself : f.Source c info inst.name s) (ho : o ≤ c) (ho' : f.SiblingDone c o') :
      Planned c info o o' (planMoves inst s none)
  | made (hunpacked : ∃ x, f.unpacked c = some (info, x)) (ho : o = c + 1) (ho' : f.SiblingDone c o') :
      Planned c info o o' []

/-- **Where a thread stands and where the binaries are from.** -/
def AtWork (c : ℕ) (o o' : ℕ) : WorkerStage inst → Prop
  | .looking info _ x => o ≤ c ∧ o' ≤ c ∧ f.unpacked c = some (info, x) ∧
      ∀ p node, x.get p = some node → f.fs p = some node
  | .replacingSibling info s b => o ≤ c ∧ o' ≤ c ∧ f.Source c info inst.name s ∧
      f.Source c info inst.siblingName b
  | .replacingSelf info s => o ≤ c ∧ f.SiblingDone c o' ∧ f.Source c info inst.name s
  | .planning info moves => f.Planned c info o o' moves ∧ moves ≠ []
  | .elevating info moves => f.Planned c info o o' moves ∧ moves ≠ []
  | .applying info _ moves => f.Planned c info o o' moves
  | _ => o ≤ c ∧ o' ≤ c

/-- What the end of a thread says of the binaries. -/
def Over (c : ℕ) (info : UpdateInfo) (o o' : ℕ) : Except String (String × Bool) → Prop
  | .ok (tag, _) => tag = info.tag ∧ (∃ x, f.unpacked c = some (info, x)) ∧ o = c + 1 ∧ f.SiblingDone c o'
  | .error _ => o ≤ c ∧ o' ≤ c + 1

end Files

/-- The update a thread is for, from the time it has been given one: a check is for none. -/
def WorkerStage.info {inst : Installation} : WorkerStage inst → Option UpdateInfo
  | .checking => none
  | .probing info => some info
  | .preparing info _ => some info
  | .downloading info _ _ => some info
  | .extracting info _ => some info
  | .looking info _ _ => some info
  | .replacingSibling info _ _ => some info
  | .replacingSelf info _ => some info
  | .planning info _ => some info
  | .elevating info _ => some info
  | .applying info _ _ => some info

/-- The moves that are planned for the helper and not made yet. -/
def WorkerStage.moves {inst : Installation} : WorkerStage inst → List PlanMove
  | .planning _ moves => moves
  | .elevating _ moves => moves
  | .applying _ _ moves => moves
  | _ => []

/-- The message tells how far an update is, and does not end it. -/
def WorkerMsg.isProgress : WorkerMsg → Bool
  | .stage _ => true
  | .download _ _ => true
  | _ => false

/-- The files after a step of this thread: what it did to the disk, and the archive it has extracted
if this was that step. -/
def Worked.files {inst : Installation} (w : Worked inst) (c : ℕ) (f : Files inst) : Files inst where
  unpacked := match w.unpacks with
    | some x => Function.update f.unpacked c (some x)
    | none => f.unpacked
  fs := w.fs

namespace Files

variable {inst : Installation} {f g : Files inst} {fs₀ : Fs} {o o' : ℕ} {c : ℕ} {info : UpdateInfo}
  {name : List Char} {path dest : PathBuf}

/-! ## What does not change -/

/-- A binary that has not been touched is from where it was from. -/
theorem From.mono (h : f.From fs₀ name dest o) (hunpacked : ∀ k, o = k + 1 → g.unpacked k = f.unpacked k)
    (hheld : held g.fs (place dest) = held f.fs (place dest)) : g.From fs₀ name dest o := by
  cases h with
  | first h => exact .first (hheld.trans h)
  | @found k info x path hx hfound h => exact .found ((hunpacked k rfl).trans hx) hfound (hheld.trans h)

/-- A thread whose archive lacks the sibling still has one that lacks it, as long as what it has
extracted is the same. -/
theorem Lacks.mono (h : f.Lacks c) (hunpacked : g.unpacked c = f.unpacked c) : g.Lacks c := by
  obtain ⟨info, x, hx, hnone⟩ := h
  exact ⟨info, x, hunpacked.trans hx, hnone⟩

/-- A step that leaves both binaries untouched leaves them from where they were, as long as the
archives they are from are still the same ones. -/
theorem Placed.mono (h : f.Placed fs₀ o o') (installed : inst.Installed g.fs)
    (hunpacked : ∀ k, o = k + 1 ∨ o' = k + 1 → g.unpacked k = f.unpacked k)
    (hexe : held g.fs (place inst.exe) = held f.fs (place inst.exe))
    (hsibling : held g.fs (place inst.sibling) = held f.fs (place inst.sibling)) : g.Placed fs₀ o o' where
  exe := h.exe.mono (fun k hk => hunpacked k (Or.inl hk)) hexe
  sibling := h.sibling.mono (fun k hk => hunpacked k (Or.inr hk)) hsibling
  order := h.order.imp_right fun ⟨k, hk, hlacks⟩ => ⟨k, hk, hlacks.mono (hunpacked k (Or.inl hk))⟩
  installed := installed

/-- What was found is still there, as long as its place is not touched. -/
theorem Source.mono (h : f.Source c info name path) (hunpacked : g.unpacked c = f.unpacked c)
    (hfs : g.fs (place path) = f.fs (place path)) : g.Source c info name path := by
  obtain ⟨x, hx, hfound, hget⟩ := h
  exact ⟨x, hunpacked.trans hx, hfound, hfs.trans hget⟩

/-- What was found is a file, and in a place of its own. -/
theorem Source.file (h : f.Source c info name path) :
    isRegular (f.fs (place path)) = true ∧ place path ≠ place inst.exe ∧ place path ≠ place inst.sibling ∧
      place path ≠ inst.staging := by
  obtain ⟨x, -, hfound, hget⟩ := h
  obtain ⟨node, hnode, hfile⟩ := findBinary_get hfound
  refine ⟨?_, findBinary_apart hfound⟩
  rw [hget, hnode, hfile]

/-- The two binaries have been found in two places. -/
theorem Source.ne {s b : PathBuf} (installed : inst.Installed f.fs) (hs : f.Source c info inst.name s)
    (hb : f.Source c info inst.siblingName b) : place s ≠ place b := by
  obtain ⟨x, hx, hself, -⟩ := hs
  obtain ⟨y, hy, hsibling, -⟩ := hb
  rw [hx, Option.some.injEq, Prod.mk.injEq] at hy
  obtain ⟨-, rfl⟩ := hy
  exact findBinary_ne installed.named hself hsibling

/-- What has been put in place of a binary is what was found. -/
theorem Source.from (h : f.Source c info name path) (hunpacked : g.unpacked c = f.unpacked c)
    (hheld : held g.fs (place dest) = held f.fs (place path)) : g.From fs₀ name dest (c + 1) := by
  obtain ⟨x, hx, hfound, hget⟩ := h
  refine .found (hunpacked.trans hx) hfound (hheld.trans ?_)
  rw [held, hget]

/-- When a thread is done with the sibling, that is from this thread or an earlier one. -/
theorem SiblingDone.le (h : f.SiblingDone c o') : o' ≤ c + 1 := by
  rcases h with h | ⟨-, h⟩
  · exact h.le
  · exact Nat.le_succ_of_le h

/-- A thread that is done with the sibling stays so, as long as its archive is the same one. -/
theorem SiblingDone.mono (h : f.SiblingDone c o') (hunpacked : g.unpacked c = f.unpacked c) :
    g.SiblingDone c o' :=
  h.imp_right fun ⟨hlacks, hle⟩ => ⟨hlacks.mono hunpacked, hle⟩

/-- No binary is from a thread later than the one that is working through this plan. -/
theorem Planned.le {moves : List PlanMove} (h : f.Planned c info o o' moves) : o ≤ c + 1 ∧ o' ≤ c + 1 := by
  cases h with
  | both _ _ ho ho' => exact ⟨Nat.le_succ_of_le ho, Nat.le_succ_of_le ho'⟩
  | last _ ho hdone => exact ⟨Nat.le_succ_of_le ho, hdone.le⟩
  | made _ ho hdone => exact ⟨ho.le, hdone.le⟩

/-- No binary is from a thread later than the one at work. -/
theorem AtWork.le {stage : WorkerStage inst} (h : f.AtWork c o o' stage) : o ≤ c + 1 ∧ o' ≤ c + 1 := by
  cases stage with
  | replacingSelf info s => exact ⟨Nat.le_succ_of_le h.1, h.2.1.le⟩
  | planning info moves => exact h.1.le
  | elevating info moves => exact h.1.le
  | applying info made moves => exact Planned.le h
  | looking info writable x => exact ⟨Nat.le_succ_of_le h.1, Nat.le_succ_of_le h.2.1⟩
  | replacingSibling info s b => exact ⟨Nat.le_succ_of_le h.1, Nat.le_succ_of_le h.2.1⟩
  -- nothing is extracted yet
  | _ => exact ⟨Nat.le_succ_of_le h.1, Nat.le_succ_of_le h.2⟩

/-- When a thread has ended, no binary is from a later one. -/
theorem Over.le {r : Except String (String × Bool)} (h : f.Over c info o o' r) : o ≤ c + 1 ∧ o' ≤ c + 1 := by
  cases r with
  | ok result => exact ⟨h.2.2.1.le, h.2.2.2.le⟩
  | error e => exact ⟨Nat.le_succ_of_le h.1, h.2⟩

/-! ## What a replacement changes -/

/-- A file of the archive stays where it is while another one goes to a binary's place. -/
theorem Source.kept {path' : PathBuf} {fs' : Fs} (h : f.Source c info name path)
    (hdest : place path ≠ place dest) (hne : place path ≠ place path')
    (frame : Elsewhere inst f.fs fs' path' dest) : (Files.mk f.unpacked fs').Source c info name path := by
  obtain ⟨hfile, -, -, hstaging⟩ := h.file
  refine h.mono rfl (frame.others path hne hdest hstaging fun hnone => ?_)
  rw [hnone] at hfile
  cases hfile

/-- A place with a regular file holds something. -/
theorem ne_none_of_isRegular {fs : Fs} {p : Place} (h : isRegular (fs p) = true) : fs p ≠ none := by
  intro hnone
  rw [hnone] at h
  cases h

/-- **The sibling is replaced** by the file found for it, and is from this thread from then on; or
everything stays as it was. -/
theorem Placed.replaceSibling {b : PathBuf} {fs' : Fs} {r : Except (List String) Unit}
    (h : f.Placed fs₀ o o') (ho : o ≤ c) (hb : f.Source c info inst.siblingName b)
    (hr : Replaces inst f.fs b inst.sibling (fs', r)) :
    (r = .ok () → (Files.mk f.unpacked fs').Placed fs₀ o (c + 1)) ∧
      (r ≠ .ok () → (Files.mk f.unpacked fs').Placed fs₀ o o') := by
  have hinst := h.installed
  obtain ⟨hfile, hbexe, -, -⟩ := hb.file
  have hexe : ∀ fs', Elsewhere inst f.fs fs' b inst.sibling → fs' (place inst.exe) = f.fs (place inst.exe) :=
    fun fs' frame => frame.others inst.exe hbexe.symm hinst.exe_ne_sibling hinst.exe_ne_staging
      (ne_none_of_isRegular hinst.exe)
  -- whichever file is at the sibling's place, Synbad stays installed
  have hinstalled : ∀ fs', Elsewhere inst f.fs fs' b inst.sibling →
      isRegular (fs' (place inst.sibling)) = true → inst.Installed fs' :=
    fun fs' frame hsibling =>
      ⟨hinst.named, by rw [hexe fs' frame, hinst.exe], hsibling, frame.temporary⟩
  cases hr with
  | ok hheld frame =>
      have hsibling : isRegular (fs' (place inst.sibling)) = true := by rw [isRegular_held hheld, hfile]
      refine ⟨fun _ => ⟨?_, hb.from rfl hheld, Or.inl (Nat.le_succ_of_le ho),
        hinstalled fs' frame hsibling⟩, fun hne => absurd rfl hne⟩
      exact h.exe.mono (fun _ _ => rfl) (congrArg (Option.map Install.Node.content) (hexe fs' frame))
  | error hheld frame =>
      have hsibling : isRegular (fs' (place inst.sibling)) = true := by
        rw [isRegular_held hheld, hinst.sibling]
      refine ⟨fun hok => (by cases hok),
        fun _ => h.mono (hinstalled fs' frame hsibling) (fun _ _ => rfl) ?_ hheld⟩
      exact congrArg (Option.map Install.Node.content) (hexe fs' frame)

/-- **The running binary is replaced**, which keeps it in step as its sibling is done with by then; or
everything stays as it was. -/
theorem Placed.replaceSelf {s : PathBuf} {fs' : Fs} {r : Except (List String) Unit}
    (h : f.Placed fs₀ o o') (hdone : f.SiblingDone c o') (hs : f.Source c info inst.name s)
    (hr : Replaces inst f.fs s inst.exe (fs', r)) :
    (r = .ok () → (Files.mk f.unpacked fs').Placed fs₀ (c + 1) o') ∧
      (r ≠ .ok () → (Files.mk f.unpacked fs').Placed fs₀ o o') := by
  have hinst := h.installed
  obtain ⟨hfile, -, hssibling, -⟩ := hs.file
  have hsibling : ∀ fs', Elsewhere inst f.fs fs' s inst.exe →
      fs' (place inst.sibling) = f.fs (place inst.sibling) :=
    fun fs' frame => frame.others inst.sibling hssibling.symm hinst.exe_ne_sibling.symm
      hinst.sibling_ne_staging (ne_none_of_isRegular hinst.sibling)
  -- whichever file is at the running binary's place, Synbad stays installed
  have hinstalled : ∀ fs', Elsewhere inst f.fs fs' s inst.exe →
      isRegular (fs' (place inst.exe)) = true → inst.Installed fs' :=
    fun fs' frame hexe => ⟨hinst.named, hexe, by rw [hsibling fs' frame, hinst.sibling], frame.temporary⟩
  cases hr with
  | ok hheld frame =>
      have hexe : isRegular (fs' (place inst.exe)) = true := by rw [isRegular_held hheld, hfile]
      refine ⟨fun _ => ⟨hs.from rfl hheld, ?_, ?_, hinstalled fs' frame hexe⟩, fun hne => absurd rfl hne⟩
      · exact h.sibling.mono (fun _ _ => rfl)
          (congrArg (Option.map Install.Node.content) (hsibling fs' frame))
      · rcases hdone with rfl | ⟨hlacks, -⟩
        · exact Or.inl le_rfl
        · exact Or.inr ⟨c, rfl, hlacks.mono rfl⟩
  | error hheld frame =>
      have hexe : isRegular (fs' (place inst.exe)) = true := by rw [isRegular_held hheld, hinst.exe]
      refine ⟨fun hok => (by cases hok),
        fun _ => h.mono (hinstalled fs' frame hexe) (fun _ _ => rfl) hheld ?_⟩
      exact congrArg (Option.map Install.Node.content) (hsibling fs' frame)

/-! ## What a thread's step comes to -/

/-- What has been extracted anew is the archive of this update, by this thread. -/
def Adds (g : Files inst) (c : ℕ) (f : Files inst) (info : UpdateInfo) : Prop :=
  ∀ k info' x, g.unpacked k = some (info', x) →
    f.unpacked k = some (info', x) ∨ (k = c ∧ info' = info)

/-- Where no archive has been extracted, none has been added. -/
theorem adds_of_eq (h : g.unpacked = f.unpacked) : g.Adds c f info := by
  intro k info' x hk
  rw [h] at hk
  exact Or.inl hk

/-- **A step of a thread that installs an update**: it goes on with it and tells how far it is, or ends and
says how. -/
inductive Reports (info : UpdateInfo) (w : Worked inst) : Prop
  | on {stage : WorkerStage inst} (hstage : w.stage = some stage) (hinfo : stage.info = some info)
      (hsends : ∀ m ∈ w.sends, m.isProgress = true) : Reports info w
  | ended {r : Except String (String × Bool)} (hstage : w.stage = none) (hsends : w.sends = [.done r]) :
      Reports info w

section Reports

variable {fs fs' : Fs} {stage : WorkerStage inst}

/-- A worker that goes on without a message reports. -/
theorem Reports.silent (hinfo : stage.info = some info) :
    Reports info (goesOn inst fs stage []) :=
  .on rfl hinfo fun _ hm => absurd hm List.not_mem_nil

/-- A worker that goes on with one message of progress reports. -/
theorem Reports.progress {m : WorkerMsg} (hinfo : stage.info = some info) (hm : m.isProgress = true) :
    Reports info (goesOn inst fs stage [m]) := by
  refine .on rfl hinfo fun m' hm' => ?_
  rw [List.mem_singleton.mp hm', hm]

/-- A worker that gives up reports that as its last message, with the causes it had. -/
theorem Reports.fails {e : List String} : Reports info (Update.fails inst fs e) := .ended rfl rfl

/-- A thread that looks for the binaries in its archive goes on with a message of progress, or gives
up if there is no running binary in it. -/
theorem reports_look {writable : Bool} {x : Extracted inst} :
    Reports info (look inst fs info writable x) := by
  unfold look
  cases findBinary x.files inst.name with
  | none => exact .fails
  | some newSelf =>
      dsimp only
      generalize (if isFile inst.links fs (place inst.sibling) = true then
        findBinary x.files inst.siblingName else none) = newSibling
      cases writable with
      | false => exact .progress rfl rfl
      | true =>
          cases newSibling with
          | none => exact .progress rfl rfl
          | some source => exact .progress rfl rfl

/-- The helper goes on silently after each move that succeeds. After the last the thread says that
all are made, and after one that fails that the helper has exited. -/
theorem reports_applyMove {made : ℕ} {a : Attempt} (moves : List PlanMove) :
    Reports info (applyMove inst fs info made a moves) := by
  cases moves with
  | nil => exact .ended rfl rfl
  | cons mv rest =>
      simp only [applyMove]
      cases Install.externalReplace .linux inst.links a fs mv.src mv.dst with
      | mk fs' r =>
          cases r with
          | ok u => exact .silent rfl
          | error e => exact .fails

variable {V : Type} [LinearOrder V] (parse : String → Option V) (current target : String)

/-- **Every step of a thread that installs reports**, whatever the files are. -/
theorem reports_work (hinfo : stage.info = some info) (move : WorkMove inst) :
    Reports info (work parse inst current target fs stage move) := by
  cases stage with
  | checking => cases hinfo
  | probing i =>
      cases hinfo
      cases move with
      -- one message or none at each stage; what it does to the files does not matter here
      | probe writable => exact .progress rfl rfl
      | _ => exact .silent rfl
  | preparing i writable =>
      cases hinfo
      cases move with
      | op fault =>
          cases fault with
          | none => exact .silent rfl
          | some e => exact .fails
      | _ => exact .silent rfl
  | downloading i writable downloaded =>
      cases hinfo
      cases move with
      | read n =>
          cases n with
          | error e => exact .fails
          | ok n =>
              cases n with
              | zero => exact .progress rfl rfl
              | succ n => exact .progress rfl rfl
      | _ => exact .silent rfl
  | extracting i writable =>
      cases hinfo
      cases move with
      | extract x =>
          cases x with
          | error e => exact .fails
          | ok x => exact .on rfl rfl fun _ hm => absurd hm List.not_mem_nil
      | _ => exact .silent rfl
  | looking i writable x =>
      cases hinfo
      cases move with
      | op _ => exact reports_look
      | _ => exact .silent rfl
  | replacingSibling i s b =>
      cases hinfo
      cases move with
      | replace a =>
          simp only [work]
          cases replaceSibling inst.links a fs b inst.sibling with
          | mk fs' r =>
              cases r with
              | ok u => exact .silent rfl
              | error e => exact .fails
      | _ => exact .silent rfl
  | replacingSelf i s =>
      cases hinfo
      cases move with
      | replaceSelf call chmod =>
          simp only [work]
          cases replaceSelf inst call chmod fs s with
          | mk fs' r =>
              cases r with
              | ok u => exact .ended rfl rfl
              | error e => exact .fails
      | _ => exact .silent rfl
  | planning i moves =>
      cases hinfo
      cases move with
      | op fault =>
          cases fault with
          | none => exact .progress rfl rfl
          | some e => exact .fails
      | _ => exact .silent rfl
  | elevating i moves =>
      cases hinfo
      cases move with
      | op fault =>
          simp only [work]
          split
          · cases fault with
            | none => exact .silent rfl
            | some e => exact .fails
          · exact .fails
      | _ => exact .silent rfl
  | applying i made moves =>
      cases hinfo
      cases move with
      | replace a => exact reports_applyMove moves
      | _ => exact .silent rfl

end Reports

/-- **What a step of a thread does to the binaries**: it goes on, or ends and says what has become of the
update. -/
inductive Went (fs₀ : Fs) (c : ℕ) (info : UpdateInfo) (f : Files inst) (w : Worked inst) : Prop
  | on {stage : WorkerStage inst} {o o' : ℕ} (hstage : w.stage = some stage)
      (hunpacked : (w.files c f).Adds c f info) (hplaced : (w.files c f).Placed fs₀ o o')
      (hwork : (w.files c f).AtWork c o o' stage)
  | ended {r : Except String (String × Bool)} {o o' : ℕ} (hstage : w.stage = none)
      (hsends : w.sends = [.done r]) (hunpacked : (w.files c f).Adds c f info)
      (hplaced : (w.files c f).Placed fs₀ o o')
      (hover : (w.files c f).Over c info o o' r)

variable {stage : WorkerStage inst}

/-- A thread that goes on without touching a file leaves the binaries where they are. -/
theorem Went.next {sends : List WorkerMsg} (hplaced : f.Placed fs₀ o o') (hwork : f.AtWork c o o' stage) :
    Went fs₀ c info f (goesOn inst f.fs stage sends) :=
  .on rfl (adds_of_eq rfl) hplaced hwork

/-- It gives up, and the running binary is an earlier one. -/
theorem Went.fails {fs' : Fs} {e : List String} (hplaced : (Files.mk f.unpacked fs').Placed fs₀ o o')
    (ho : o ≤ c) (ho' : o' ≤ c + 1) : Went fs₀ c info f (Update.fails inst fs' e) :=
  .ended rfl rfl (adds_of_eq rfl) hplaced ⟨ho, ho'⟩

/-- The running binary is in every plan, so the helper has something to do. -/
theorem planMoves_ne_nil (s : PathBuf) (b : Option PathBuf) : planMoves inst s b ≠ [] :=
  List.append_ne_nil_of_right_ne_nil _ (List.cons_ne_nil _ _)

/-- As long as there are moves to make, the running binary is an earlier one. -/
theorem Planned.behind {moves : List PlanMove} (h : f.Planned c info o o' moves) (hne : moves ≠ []) :
    o ≤ c ∧ o' ≤ c + 1 := by
  cases h with
  | both _ _ ho ho' => exact ⟨ho, Nat.le_succ_of_le ho'⟩
  | last _ ho hdone => exact ⟨ho, hdone.le⟩
  | made => exact absurd rfl hne

/-- The archive is extracted: the binaries are still where they were, as it goes into a directory of
its own. -/
theorem went_extract {writable : Bool} {x : Extracted inst} (hplaced : f.Placed fs₀ o o') (ho : o ≤ c)
    (ho' : o' ≤ c) :
    Went fs₀ c info f ⟨some (.looking info writable x), [], x.onto f.fs, some (info, x)⟩ := by
  obtain ⟨hexe, hsibling⟩ := get_installed (x := x)
  -- the binaries are from earlier threads, whose archives stay where they are
  have hkept : ∀ k, o = k + 1 ∨ o' = k + 1 →
      Function.update f.unpacked c (some (info, x)) k = f.unpacked k := by
    intro k hk
    refine Function.update_of_ne (fun heq => ?_) _ _
    omega
  have hadds : (Files.mk (Function.update f.unpacked c (some (info, x))) (x.onto f.fs)).Adds c f info := by
    intro k info' y hk
    dsimp only at hk
    by_cases heq : k = c
    · subst heq
      rw [Function.update_self, Option.some.injEq, Prod.mk.injEq] at hk
      exact Or.inr ⟨rfl, hk.1.symm⟩
    · rw [Function.update_of_ne heq] at hk
      exact Or.inl hk
  have hinst := hplaced.installed
  have hinstalled : inst.Installed (x.onto f.fs) := by
    refine ⟨hinst.named, ?_, ?_, fun q hq => ?_⟩
    · rw [onto_of_none hexe, hinst.exe]
    · rw [onto_of_none hsibling, hinst.sibling]
    · exact (hinst.temporary q hq).congr (onto_of_none (get_temporary hq))
  refine .on rfl hadds (hplaced.mono hinstalled hkept ?_ ?_)
    ⟨ho, ho', Function.update_self .., fun p node hp => onto_of_some hp⟩
  · show held (x.onto f.fs) _ = _
    rw [held, onto_of_none hexe, held]
  · show held (x.onto f.fs) _ = _
    rw [held, onto_of_none hsibling, held]

/-- The binaries are looked for, and what is found is what they are going to be replaced by, sibling
first. -/
theorem went_look {writable : Bool} {x : Extracted inst} (hplaced : f.Placed fs₀ o o')
    (hwork : f.AtWork c o o' (.looking info writable x)) :
    Went fs₀ c info f (look inst f.fs info writable x) := by
  obtain ⟨ho, ho', hx, hfs⟩ := hwork
  have hsource : ∀ {name path}, findBinary x.files name = some path → f.Source c info name path := by
    intro name path hfound
    obtain ⟨node, hnode, -⟩ := findBinary_get hfound
    exact ⟨x, hx, hfound, by rw [hnode, hfs _ _ hnode]⟩
  unfold look
  cases hself : findBinary x.files inst.name with
  | none => exact .fails hplaced ho (Nat.le_succ_of_le ho')
  | some s =>
      have hpresent : isFile inst.links f.fs (place inst.sibling) = true := by
        have hregular := hplaced.installed.sibling
        rw [isFile, Install.stat_of_noLink (Install.noLink_of_isRegular hregular), hregular]
      simp only [hpresent, if_true]
      cases hsibling : findBinary x.files inst.siblingName with
      | none =>
          -- the sibling stays behind, as the archive has none
          have hdone : f.SiblingDone c o' := Or.inr ⟨⟨info, x, hx, hsibling⟩, ho'⟩
          cases writable with
          | true => exact .next hplaced ⟨ho, hdone, hsource hself⟩
          | false =>
              exact .next hplaced
                ⟨.last (hsource hself) ho hdone, planMoves_ne_nil _ _⟩
      | some b =>
          cases writable with
          | true => exact .next hplaced ⟨ho, ho', hsource hself, hsource hsibling⟩
          | false =>
              exact .next hplaced
                ⟨.both (hsource hself) (hsource hsibling) ho ho', planMoves_ne_nil _ _⟩

/-- The helper makes one move of its plan, and what is left of the plan is in step with it. -/
theorem went_applyMove {made : ℕ} {a : Attempt} {moves : List PlanMove} (hplaced : f.Placed fs₀ o o')
    (hplanned : f.Planned c info o o' moves) :
    Went fs₀ c info f (applyMove inst f.fs info made a moves) := by
  cases hplanned with
  -- no move is left, and the helper ends
  | made hx ho hdone => exact .ended rfl rfl (adds_of_eq rfl) hplaced ⟨rfl, hx, ho, hdone⟩
  | @last s hself ho hdone =>
      obtain ⟨hfile, hsexe, -, hsstaging⟩ := hself.file
      have hinst := hplaced.installed
      have hr := replaces_externalReplace (a := a) hinst hfile hsexe hsstaging hinst.exe_ne_staging
      simp only [planMoves, Option.map_none, Option.toList_none, List.nil_append, applyMove]
      cases hrun : Install.externalReplace .linux inst.links a f.fs s inst.exe with
      | mk fs' r =>
          rw [hrun] at hr
          obtain ⟨hok, herror⟩ := hplaced.replaceSelf hdone hself hr
          obtain ⟨x, hx, -⟩ := hself
          cases r with
          | ok u =>
              refine .on rfl (adds_of_eq rfl) (hok rfl) ?_
              exact Planned.made ⟨x, hx⟩ rfl (hdone.mono rfl)
          | error e => exact .fails (herror (nomatch ·)) ho hdone.le
  | @both s b hself hsibling ho ho' =>
      obtain ⟨hfile, -, hbsibling, hbstaging⟩ := hsibling.file
      obtain ⟨-, -, hssibling, -⟩ := hself.file
      have hinst := hplaced.installed
      have hr := replaces_externalReplace (a := a) hinst hfile hbsibling hbstaging hinst.sibling_ne_staging
      simp only [planMoves, Option.map_some, Option.toList_some, List.cons_append, List.nil_append, applyMove]
      cases hrun : Install.externalReplace .linux inst.links a f.fs b inst.sibling with
      | mk fs' r =>
          rw [hrun] at hr
          obtain ⟨hok, herror⟩ := hplaced.replaceSibling ho hsibling hr
          cases r with
          | ok u =>
              refine .on rfl (adds_of_eq rfl) (hok rfl) ?_
              -- what is to replace the running binary is still there after the sibling's move
              cases hr with
              | ok _ frame =>
                  exact Planned.last (hself.kept hssibling (hself.ne hinst hsibling) frame) ho (Or.inl rfl)
          | error e => exact .fails (herror (nomatch ·)) ho (Nat.le_succ_of_le ho')

variable {V : Type} [LinearOrder V] (parse : String → Option V) (current target : String)

/-- **What one step of a thread preserves**, at each of its stages: where the binaries are from stays
known, and what the thread goes on with fits that. -/
theorem went_work (hinfo : stage.info = some info) (hplaced : f.Placed fs₀ o o')
    (hwork : f.AtWork c o o' stage) (move : WorkMove inst) :
    Went fs₀ c info f (work parse inst current target f.fs stage move) := by
  cases stage with
  | checking => cases hinfo
  | probing info =>
      cases hinfo
      cases move with
      | probe writable => exact .next hplaced hwork
      | _ => exact .next hplaced hwork
  | preparing info writable =>
      cases hinfo
      cases move with
      | op fault =>
          cases fault with
          | none => exact .next hplaced hwork
          -- the preparation fails before anything is extracted, so both binaries are where they
          -- were
          | some e => exact .fails hplaced hwork.1 (Nat.le_succ_of_le hwork.2)
      | _ => exact .next hplaced hwork
  | downloading info writable downloaded =>
      cases hinfo
      cases move with
      | read n =>
          cases n with
          | error e => exact .fails hplaced hwork.1 (Nat.le_succ_of_le hwork.2)
          | ok n =>
              cases n with
              | zero => exact .next hplaced hwork
              | succ n => exact .next hplaced hwork
      | _ => exact .next hplaced hwork
  | extracting info writable =>
      cases hinfo
      cases move with
      | extract x =>
          cases x with
          | error e => exact .fails hplaced hwork.1 (Nat.le_succ_of_le hwork.2)
          -- the archive goes into a directory of its own: no installed file is touched
          | ok x => exact went_extract hplaced hwork.1 hwork.2
      | _ => exact .next hplaced hwork
  | looking info writable x =>
      cases hinfo
      cases move with
      | op _ => exact went_look hplaced hwork
      | _ => exact .next hplaced hwork
  | replacingSibling info s b =>
      cases hinfo
      cases move with
      | replace a =>
          obtain ⟨ho, ho', hself, hsibling⟩ := hwork
          have hinst := hplaced.installed
          obtain ⟨hfile, -, -, hbstaging⟩ := hsibling.file
          obtain ⟨-, -, hssibling, -⟩ := hself.file
          have hr := replaces_replaceSibling (a := a) hinst hfile hbstaging
          simp only [work]
          cases hrun : Update.replaceSibling inst.links a f.fs b inst.sibling with
          | mk fs' r =>
              rw [hrun] at hr
              obtain ⟨hok, herror⟩ := hplaced.replaceSibling ho hsibling hr
              cases r with
              | ok u =>
                  -- the sibling is this thread's now; what was found for the running binary is
                  -- still in the archive
                  refine .on rfl (adds_of_eq rfl) (hok rfl)
                    ⟨ho, Or.inl rfl, ?_⟩
                  cases hr with
                  | ok _ frame => exact hself.kept hssibling (hself.ne hinst hsibling) frame
              | error e => exact .fails (herror (nomatch ·)) ho (Nat.le_succ_of_le ho')
      | _ => exact .next hplaced hwork
  | replacingSelf info s =>
      cases hinfo
      cases move with
      | replaceSelf call chmod =>
          obtain ⟨ho, hdone, hself⟩ := hwork
          have hr := replaces_replaceSelf hplaced.installed hself.file.1 call chmod
          simp only [work]
          cases hrun : Update.replaceSelf inst call chmod f.fs s with
          | mk fs' r =>
              rw [hrun] at hr
              obtain ⟨hok, herror⟩ := hplaced.replaceSelf hdone hself hr
              obtain ⟨x, hx, -⟩ := hself
              cases r with
              -- both are done with, so the end of the thread may speak of both
              | ok u => exact .ended rfl rfl (adds_of_eq rfl) (hok rfl) ⟨rfl, ⟨x, hx⟩, rfl, hdone.mono rfl⟩
              | error e => exact .fails (herror (nomatch ·)) ho hdone.le
      | _ => exact .next hplaced hwork
  | planning info moves =>
      cases hinfo
      cases move with
      | op fault =>
          cases fault with
          | none => exact .next hplaced hwork
          | some e =>
              -- nothing of the plan has been made yet, so no binary is this thread's
              obtain ⟨ho, ho'⟩ := hwork.1.behind hwork.2
              exact .fails hplaced ho ho'
      | _ => exact .next hplaced hwork
  | elevating info moves =>
      cases hinfo
      cases move with
      | op fault =>
          obtain ⟨ho, ho'⟩ := hwork.1.behind hwork.2
          simp only [work]
          -- without a helper at its place there is nobody to start
          by_cases hhelper : isFile inst.links f.fs (.path (inst.helper f.fs)) = true
          · rw [if_pos hhelper]
            cases fault with
            | none => exact .next hplaced hwork.1
            | some e => exact .fails hplaced ho ho'
          · rw [if_neg hhelper]
            exact .fails hplaced ho ho'
      | _ => exact .next hplaced hwork
  | applying info made moves =>
      cases hinfo
      cases move with
      | replace a => exact went_applyMove hplaced hwork
      | _ => exact .next hplaced hwork

/-! ## The plan and the helper -/

/-- A plan without a move is well formed: it asks for nothing. -/
theorem wellFormed_nil (fs : Fs) (tag : String) : (Install.Plan.mk tag []).WellFormed fs :=
  ⟨List.Pairwise.nil, List.Pairwise.nil, fun _ hm => absurd hm List.not_mem_nil,
    fun _ hm => absurd hm List.not_mem_nil⟩

/-- **Every plan is well formed**: the binaries come from two places of the archive, which hold files, and
go to two others. -/
theorem Planned.wellFormed {moves : List PlanMove} (h : f.Planned c info o o' moves)
    (installed : inst.Installed f.fs) (tag : String) : (Install.Plan.mk tag moves).WellFormed f.fs := by
  cases h with
  | made => exact wellFormed_nil _ tag
  | @last s hself _ _ =>
      obtain ⟨hfile, hsexe, -, -⟩ := hself.file
      refine ⟨List.pairwise_singleton _ _, List.pairwise_singleton _ _, fun m hm m' hm' => ?_,
        fun m hm => ?_⟩
      · rw [List.mem_singleton.mp hm, List.mem_singleton.mp hm']
        exact hsexe
      · rw [List.mem_singleton.mp hm]
        exact Install.noLink_of_isRegular hfile
  | @both s b hself hsibling _ _ =>
      obtain ⟨hsfile, hsexe, hssibling, -⟩ := hself.file
      obtain ⟨hbfile, hbexe, hbsibling, -⟩ := hsibling.file
      refine ⟨List.pairwise_pair.mpr (hself.ne installed hsibling).symm,
        List.pairwise_pair.mpr installed.exe_ne_sibling.symm, ?_, ?_⟩
      · intro m hm m' hm'
        rcases List.mem_pair.mp hm with rfl | rfl
        · rcases List.mem_pair.mp hm' with rfl | rfl
          · exact hbsibling
          · exact hbexe
        · rcases List.mem_pair.mp hm' with rfl | rfl
          · exact hssibling
          · exact hsexe
      · intro m hm
        rcases List.mem_pair.mp hm with rfl | rfl
        · exact Install.noLink_of_isRegular hbfile
        · exact Install.noLink_of_isRegular hsfile

/-- A thread at work plans only what `apply_plan` may be given: moves between places that differ, of
files that are no links. -/
theorem AtWork.wellFormed (h : f.AtWork c o o' stage) (installed : inst.Installed f.fs) (tag : String) :
    (Install.Plan.mk tag stage.moves).WellFormed f.fs := by
  cases stage with
  | planning info moves => exact h.1.wellFormed installed tag
  | elevating info moves => exact h.1.wellFormed installed tag
  | applying info made moves => exact Planned.wellFormed h installed tag
  | _ => exact wellFormed_nil _ tag

/-- The steps of the helper from a move on. -/
def helperSteps (inst : Installation) (info : UpdateInfo) (attempts : ℕ → Attempt) :
    ℕ → List PlanMove → Fs → Worked inst
  | made, [], fs => applyMove inst fs info made (attempts made) []
  | made, mv :: rest, fs =>
      let worked := applyMove inst fs info made (attempts made) (mv :: rest)
      match worked.stage with
      | some _ => helperSteps inst info attempts (made + 1) rest worked.fs
      | none => worked

/-- **The helper's steps are the loop of `apply_plan`**, which it is started for. -/
theorem helperSteps_eq (attempts : ℕ → Attempt) (made : ℕ) (moves : List PlanMove) (fs : Fs) :
    let worked := helperSteps inst info attempts made moves fs
    let applied := Install.applyMoves .linux inst.links attempts made moves fs
    worked.fs = applied.1 ∧ worked.stage = none ∧
      (worked.sends = [.done (.ok (info.tag, true))] ↔ applied.2 = .ok ()) := by
  induction moves generalizing made fs with
  | nil => exact ⟨rfl, rfl, iff_of_true rfl rfl⟩
  | cons mv rest ih =>
      simp only [helperSteps, applyMove, Install.applyMoves]
      cases hrun : Install.externalReplace .linux inst.links (attempts made) fs mv.src mv.dst with
      | mk fs' r =>
          cases r with
          | ok u => exact ih (made + 1) fs'
          | error e => simp [Update.fails]

end Files

end Update

end Synbad
