import Synbad.Lib.Run
import Synbad.Update.Worker

/-! # The update dialog

The updates modal of the window (`synbad-gui/src/update.rs`, and its handling in `app/mod.rs`) with
the threads it starts, in any order of clicks, frames and operations of the threads. A thread's
messages wait in its channel until a frame takes them, and the user may close the dialog in between.

The dialog stays what it is while it is closed, and what is started from it is done with before the
next thing can be started. So there is one thread at most, whatever the files are and wherever the
binaries stand (`one_thread`): `Orderly` is the invariant, with the three things that can be under
way, and every step keeps it.

Where Synbad is installed, as two files under their own names, what the dialog says of the releases it
was answered with and of the binaries is so (`binaries_in_step`). For that `Sound` adds where the
binaries are from, how far the thread at work is, and that every release the dialog speaks of is one
of those the check of this run was given (`Listed`). -/

namespace Synbad

namespace Update

open Install (Fs)

/-! ## The source -/

/-- `UpdateState`: what the dialog shows, with the channel it listens on while a thread is to answer
it, by the number of that thread. -/
inductive UpdateState where
  | checking (rx : ℕ)
  | ready (result : CheckResult)
  | checkFailed (e : String)
  | installing (rx : ℕ) (info : UpdateInfo) (stage : String) (downloaded total : ℕ)
  | installed (tag : String) (elevated : Bool) (exe : PathBuf)
  | installFailed (e : String)

namespace UpdateState

/-- The channel the dialog listens on: there is one while it checks and while it installs. -/
def rx : UpdateState → Option ℕ
  | .checking rx => some rx
  | .installing rx _ _ _ _ => some rx
  | _ => none

end UpdateState

/-- What the user clicks: the buttons of the dialog, and that of the window. -/
inductive Click where
  /-- The window's own button, which ends the process with its threads. -/
  | closeWindow
  | close
  | check
  | install
  /-- `relaunch_after_update`, and whether the new process could be started. -/
  | relaunch (spawned : Bool)

/-- The state of the dialog, the threads it has started with their channels, and the files. -/
structure Flow (inst : Installation) where
  dialog : Option UpdateState
  queue : ℕ → List WorkerMsg
  workers : List (ℕ × WorkerStage inst)
  spawned : ℕ
  files : Files inst

/-- The window, as far as updates go, and whether its process is still there. -/
structure Updater (inst : Installation) where
  flow : Flow inst
  /-- `show_update_dialog`: the dialog is drawn, and its buttons are there to be clicked. -/
  shown : Bool
  /-- The process has ended, by the window's button or the one that follows an installation. -/
  gone : Bool

/-- What happens next: something the user does, a frame that is drawn, or an operation of a thread. -/
inductive UpdaterInput (inst : Installation) where
  /-- The menu's entry for updates, which shows the dialog and may start a check. -/
  | openDialog
  | poll
  | click (c : Click)
  | work (c : ℕ) (move : WorkMove inst)

namespace Flow

variable {inst : Installation} (u : Flow inst)

/-- `spawn_check`: a new thread with a new channel, on which the dialog waits for what is found. -/
def spawnCheck : Flow inst :=
  { u with
    dialog := some (.checking u.spawned)
    workers := (u.spawned, .checking) :: u.workers
    spawned := u.spawned + 1 }

/-- `spawn_install`: a new thread for this update, with a new channel for its progress and its end. -/
def spawnInstall (info : UpdateInfo) : Flow inst :=
  { u with
    dialog := some (.installing u.spawned info "starting" 0 info.assetSize)
    workers := (u.spawned, .probing info) :: u.workers
    spawned := u.spawned + 1 }

/-- The check that `open_update_dialog` and the button start: not over what is under way or found. -/
def check : Flow inst :=
  match u.dialog with
  | none => u.spawnCheck
  | some (.checkFailed _) => u.spawnCheck
  | some (.installFailed _) => u.spawnCheck
  | _ => u

/-- The button that installs, which is there only when what was found is newer than what runs. -/
def install : Flow inst :=
  match u.dialog with
  | some (.ready result) => if result.newer then u.spawnInstall result.info else u
  | _ => u

/-- The loop of `poll`: what has been sent so far, up to the end. -/
def drain (stage : String) (downloaded total : ℕ) : List WorkerMsg →
    (String × ℕ × ℕ) × Option (Except String (String × Bool)) × List WorkerMsg
  | [] => ((stage, downloaded, total), none, [])
  | .stage s :: rest => drain s downloaded total rest
  | .download d t :: rest => drain stage d (if 0 < t then t else total) rest
  | .done r :: rest => ((stage, downloaded, total), some r, rest)
  | .checked _ :: rest => drain stage downloaded total rest

/-- `poll`, in each frame: what a check has found is shown, and of an installation its progress, or
its end. -/
def poll : Flow inst :=
  match u.dialog with
  | some (.checking rx) =>
      match u.queue rx with
      | .checked (.ok result) :: rest =>
          { u with dialog := some (.ready result), queue := Function.update u.queue rx rest }
      | .checked (.error e) :: rest =>
          { u with dialog := some (.checkFailed e), queue := Function.update u.queue rx rest }
      | _ => u
  | some (.installing rx info stage downloaded total) =>
      match drain stage downloaded total (u.queue rx) with
      | (_, some (.ok (tag, elevated)), rest) =>
          { u with
            dialog := some (.installed tag elevated inst.exe), queue := Function.update u.queue rx rest }
      | (_, some (.error e), rest) =>
          { u with dialog := some (.installFailed e), queue := Function.update u.queue rx rest }
      | ((stage, downloaded, total), none, rest) =>
          { u with
            dialog := some (.installing rx info stage downloaded total)
            queue := Function.update u.queue rx rest }
  | _ => u

/-- A thread takes a step: its messages go to the end of its channel, and if it has ended it is
gone. -/
def workerStep {V : Type} [LinearOrder V] (parse : String → Option V) (current target : String) (c : ℕ)
    (move : WorkMove inst) : Flow inst :=
  match u.workers.lookup c with
  | none => u
  | some stage =>
      let worked := work parse inst current target u.files.fs stage move
      { u with
        workers := (worked.stage.map (c, ·)).toList ++ u.workers.filter (·.1 ≠ c)
        queue := Function.update u.queue c (u.queue c ++ worked.sends)
        files := worked.files c u.files }

end Flow

namespace Updater

variable {inst : Installation} (u : Updater inst)

/-- What a click does, where `draw_modal` has the button. -/
def click : Click → Updater inst
  | .closeWindow => { u with shown := false }
  | .close =>
      match u.flow.dialog.bind UpdateState.rx with
      | none => { u with shown := false }
      | some _ => u
  | .check => { u with flow := u.flow.check }
  | .install => { u with flow := u.flow.install }
  | .relaunch spawned =>
      match u.flow.dialog with
      | some (.installed _ _ _) => { u with gone := spawned }
      | _ => u

/-- One step of the whole; after the process has ended there is none. -/
def step {V : Type} [LinearOrder V] (parse : String → Option V) (current target : String)
    (u : Updater inst) (input : UpdaterInput inst) : Updater inst :=
  if u.gone then u
  else
    match input with
    | .openDialog => { u with flow := u.flow.check, shown := true }
    | .poll => { u with flow := u.flow.poll }
    | .click c => if u.shown then u.click c else u
    | .work c move => { u with flow := u.flow.workerStep parse current target c move }

/-- The window has just come up, over these files. -/
def start (inst : Installation) (fs : Fs) : Updater inst where
  flow :=
    { dialog := none
      queue _ := []
      workers := []
      spawned := 0
      files := ⟨fun _ => none, fs⟩ }
  shown := false
  gone := false

end Updater

/-! ## The dialog and its threads -/

namespace Flow

variable {inst : Installation}

/-- **What is under way**: nothing, or one thread whose channel the dialog listens on, or the end of one
that the dialog has not heard of yet. -/
inductive Phase (u : Flow inst) : Prop
  | idle (hworkers : u.workers = []) (hrx : u.dialog.bind UpdateState.rx = none)
  | checking {c : ℕ} (hc : c + 1 = u.spawned) (hworkers : u.workers = [(c, .checking)])
      (hdialog : u.dialog = some (.checking c)) (hqueue : u.queue c = [])
  | checked {c : ℕ} {r : Except String CheckResult} (hc : c + 1 = u.spawned) (hworkers : u.workers = [])
      (hdialog : u.dialog = some (.checking c)) (hqueue : u.queue c = [.checked r])
  | installing {c : ℕ} {stage : WorkerStage inst} {info : UpdateInfo} {label : String} {downloaded total : ℕ}
      (hc : c + 1 = u.spawned) (hworkers : u.workers = [(c, stage)]) (hinfo : stage.info = some info)
      (hdialog : u.dialog = some (.installing c info label downloaded total))
      (hqueue : ∀ m ∈ u.queue c, m.isProgress = true)
  | ended {c : ℕ} {info : UpdateInfo} {label : String} {downloaded total : ℕ} {sent : List WorkerMsg}
      {r : Except String (String × Bool)} (hc : c + 1 = u.spawned) (hworkers : u.workers = [])
      (hdialog : u.dialog = some (.installing c info label downloaded total))
      (hqueue : u.queue c = sent ++ [.done r]) (hsent : ∀ m ∈ sent, m.isProgress = true)

/-- What holds of the dialog and its threads between any two steps. -/
structure Orderly (u : Flow inst) : Prop where
  fresh : ∀ c, u.spawned ≤ c → u.queue c = []
  phase : u.Phase

variable {u : Flow inst}

/-- A dialog that listens on no channel has nothing under way. -/
theorem Phase.workers_eq_nil (h : u.Phase) (hrx : u.dialog.bind UpdateState.rx = none) :
    u.workers = [] := by
  cases h with
  | idle hworkers _ => exact hworkers
  | checked _ hworkers _ _ => exact hworkers
  | ended _ hworkers _ _ _ => exact hworkers
  | checking _ _ hdialog _ =>
      rw [hdialog] at hrx
      cases hrx
  | installing _ _ _ hdialog _ =>
      rw [hdialog] at hrx
      cases hrx

/-- A check is started when nothing is waited for, so its thread is the only one. -/
theorem Orderly.spawnCheck (h : u.Orderly) (hrx : u.dialog.bind UpdateState.rx = none) :
    u.spawnCheck.Orderly where
  fresh c hc := h.fresh c (Nat.le_of_succ_le hc)
  phase := .checking rfl (by rw [Flow.spawnCheck, h.phase.workers_eq_nil hrx]) rfl (h.fresh _ le_rfl)

/-- An installation is started when nothing is waited for, so its thread is the only one. -/
theorem Orderly.spawnInstall (h : u.Orderly) (hrx : u.dialog.bind UpdateState.rx = none)
    (info : UpdateInfo) : (u.spawnInstall info).Orderly where
  fresh c hc := h.fresh c (Nat.le_of_succ_le hc)
  phase := by
    have hqueue : u.queue u.spawned = [] := h.fresh _ le_rfl
    have hinfo : (WorkerStage.probing info : WorkerStage inst).info = some info := rfl
    refine .installing rfl ?_ hinfo rfl fun m hm => ?_
    · rw [Flow.spawnInstall, h.phase.workers_eq_nil hrx]
    · rw [Flow.spawnInstall, hqueue] at hm
      cases hm

/-- The check button starts a check of a dialog that listens on no channel, or does nothing. -/
theorem check_cases (u : Flow inst) :
    (u.dialog.bind UpdateState.rx = none ∧ u.check = u.spawnCheck) ∨ u.check = u := by
  unfold Flow.check
  split
  · next hdialog => exact Or.inl ⟨by rw [hdialog]; rfl, rfl⟩
  · next e hdialog => exact Or.inl ⟨by rw [hdialog]; rfl, rfl⟩
  · next e hdialog => exact Or.inl ⟨by rw [hdialog]; rfl, rfl⟩
  · exact Or.inr rfl

/-- The install button starts the installation of what is offered as newer, or does nothing. -/
theorem install_cases (u : Flow inst) :
    (∃ result, u.dialog = some (.ready result) ∧ result.newer = true ∧
      u.install = u.spawnInstall result.info) ∨ u.install = u := by
  unfold Flow.install
  split
  · next result hdialog =>
    by_cases hnewer : result.newer = true
    · exact Or.inl ⟨result, hdialog, hnewer, if_pos hnewer⟩
    · exact Or.inr (if_neg hnewer)
  · exact Or.inr rfl

/-- Order survives the check that the dialog starts: if it starts one at all, nothing was under way.
-/
theorem Orderly.check (h : u.Orderly) : u.check.Orderly := by
  rcases u.check_cases with ⟨hrx, heq⟩ | heq
  · rw [heq]
    exact h.spawnCheck hrx
  · rwa [heq]

/-- Order survives the install button: what has been found and is shown leaves nothing under way. -/
theorem Orderly.install (h : u.Orderly) : u.install.Orderly := by
  rcases u.install_cases with ⟨result, hdialog, -, heq⟩ | heq
  · rw [heq]
    exact h.spawnInstall (by rw [hdialog]; rfl) result.info
  · rwa [heq]

/-! ### What is sent is heard -/

/-- While there is only progress, the loop takes it all and goes on waiting. -/
theorem drain_progress {sent : List WorkerMsg} (hsent : ∀ m ∈ sent, m.isProgress = true) (stage : String)
    (downloaded total : ℕ) (rest : List WorkerMsg) :
    ∃ s d t, drain stage downloaded total (sent ++ rest) = drain s d t rest := by
  induction sent generalizing stage downloaded total with
  | nil => exact ⟨_, _, _, rfl⟩
  | cons m sent ih =>
      have hrest : ∀ m ∈ sent, m.isProgress = true := fun m' hm' => hsent m' (List.mem_cons_of_mem m hm')
      cases m with
      | stage label => exact ih hrest _ _ _
      | download d t => exact ih hrest _ _ _
      | checked r => exact absurd (hsent _ List.mem_cons_self) Bool.false_ne_true
      | done r => exact absurd (hsent _ List.mem_cons_self) Bool.false_ne_true

/-- The queue of the last thread changes; those of threads to come stay empty. -/
theorem fresh_update (h : ∀ c, u.spawned ≤ c → u.queue c = []) {c : ℕ} (hc : c + 1 = u.spawned)
    (rest : List WorkerMsg) : ∀ k, u.spawned ≤ k → Function.update u.queue c rest k = [] := by
  intro k hk
  rw [Function.update_of_ne (by omega), h k hk]

/-- The dialog after the end of the last thread has been heard. -/
def heard (u : Flow inst) (state : UpdateState) (c : ℕ) : Flow inst :=
  { u with dialog := some state, queue := Function.update u.queue c [] }

/-- After the end of a thread has been heard its channel is empty. -/
theorem heard_queue (u : Flow inst) (state : UpdateState) (c : ℕ) : (u.heard state c).queue c = [] :=
  Function.update_self ..

/-- What the dialog comes to when it has heard how a check ended. -/
def afterCheck : Except String CheckResult → UpdateState
  | .ok result => .ready result
  | .error e => .checkFailed e

/-- What the dialog comes to when it has heard how an installation ended. -/
def afterInstall (inst : Installation) : Except String (String × Bool) → UpdateState
  | .ok (tag, elevated) => .installed tag elevated inst.exe
  | .error e => .installFailed e

/-- **What a frame does**: it hears the end of the last thread, or takes the progress that has been sent, or
changes nothing. -/
inductive Polled (u : Flow inst) : Flow inst → Prop
  | same : Polled u u
  | checked {c : ℕ} {r : Except String CheckResult} (hc : c + 1 = u.spawned) (hworkers : u.workers = [])
      (hdialog : u.dialog = some (.checking c)) (hsent : .checked r ∈ u.queue c) :
      Polled u (u.heard (afterCheck r) c)
  | progress {c : ℕ} {stage : WorkerStage inst} {info : UpdateInfo} {label : String} {downloaded total : ℕ}
      {s : String} {d t : ℕ} (hc : c + 1 = u.spawned) (hworkers : u.workers = [(c, stage)])
      (hinfo : stage.info = some info)
      (hdialog : u.dialog = some (.installing c info label downloaded total)) :
      Polled u (u.heard (.installing c info s d t) c)
  | ended {c : ℕ} {info : UpdateInfo} {label : String} {downloaded total : ℕ}
      {r : Except String (String × Bool)} (hc : c + 1 = u.spawned) (hworkers : u.workers = [])
      (hdialog : u.dialog = some (.installing c info label downloaded total))
      (hsent : .done r ∈ u.queue c) : Polled u (u.heard (afterInstall inst r) c)

/-- In good order a frame does one of the things that `Polled` lists, each with what was under way
before it. -/
theorem Orderly.polled (h : u.Orderly) : Polled u u.poll := by
  cases h.phase with
  | idle hworkers hrx =>
      unfold Flow.poll
      split
      · next rx hdialog =>
        rw [hdialog] at hrx
        cases hrx
      · next rx info stage downloaded total hdialog =>
        rw [hdialog] at hrx
        cases hrx
      · exact .same
  | checking hc hworkers hdialog hqueue =>
      -- nothing has been sent yet
      simp only [Flow.poll, hdialog, hqueue]
      exact .same
  | @checked c r hc hworkers hdialog hqueue =>
      have hsent : .checked r ∈ u.queue c := hqueue ▸ List.mem_singleton_self _
      have hpolled := Polled.checked hc hworkers hdialog hsent
      simp only [Flow.poll, hdialog, hqueue]
      cases r with
      | ok result => exact hpolled
      | error e => exact hpolled
  | @installing c stage info label downloaded total hc hworkers hinfo hdialog hqueue =>
      obtain ⟨s, d, t, hdrain⟩ := drain_progress hqueue label downloaded total []
      rw [List.append_nil] at hdrain
      simp only [Flow.poll, hdialog, hdrain, drain]
      exact .progress hc hworkers hinfo hdialog
  | @ended c info label downloaded total sent r hc hworkers hdialog hqueue hprogress =>
      obtain ⟨s, d, t, hdrain⟩ := drain_progress hprogress label downloaded total [.done r]
      have hsent : .done r ∈ u.queue c := hqueue ▸ List.mem_append_right _ (List.mem_singleton_self _)
      have hpolled := Polled.ended hc hworkers hdialog hsent
      rw [← hqueue] at hdrain
      simp only [Flow.poll, hdialog, hdrain, drain]
      cases r with
      | ok result => exact hpolled
      | error e => exact hpolled

/-- A frame keeps order: it takes messages from the channel and, with the last of them, ends the
waiting. -/
theorem Polled.orderly {u' : Flow inst} (hpolled : Polled u u') (h : u.Orderly) : u'.Orderly := by
  cases hpolled with
  | same => exact h
  | @checked c r hc hworkers hdialog hsent =>
      refine ⟨fresh_update h.fresh hc [], .idle hworkers ?_⟩
      cases r <;> rfl
  | progress hc hworkers hinfo hdialog =>
      refine ⟨fresh_update h.fresh hc [], .installing hc hworkers hinfo rfl fun m hm => ?_⟩
      rw [heard_queue] at hm
      cases hm
  | @ended c info label downloaded total r hc hworkers hdialog hsent =>
      refine ⟨fresh_update h.fresh hc [], .idle hworkers ?_⟩
      cases r <;> rfl

/-! ### A step of a thread -/

variable {V : Type} [LinearOrder V] (parse : String → Option V) (current target : String)

/-- **A step of a thread** is one of the last thread, which checks or installs; there is no other. -/
inductive Works (u : Flow inst) (c : ℕ) (move : WorkMove inst) : Prop
  | none (hsame : u.workerStep parse current target c move = u)
  | checking (hc : c + 1 = u.spawned) (hworkers : u.workers = [(c, .checking)])
      (hdialog : u.dialog = some (.checking c)) (hqueue : u.queue c = [])
  | installing {stage : WorkerStage inst} {info : UpdateInfo} {label : String} {downloaded total : ℕ}
      (hc : c + 1 = u.spawned) (hworkers : u.workers = [(c, stage)]) (hinfo : stage.info = some info)
      (hdialog : u.dialog = some (.installing c info label downloaded total))
      (hqueue : ∀ m ∈ u.queue c, m.isProgress = true)

/-- In good order there is no thread but the last one, so a step of any other changes nothing. -/
theorem Orderly.works (h : u.Orderly) (c : ℕ) (move : WorkMove inst) :
    Works parse current target u c move := by
  have hother : u.workers.lookup c = none → u.workerStep parse current target c move = u := by
    intro hlookup
    rw [Flow.workerStep, hlookup]
  have hidle : u.workers = [] → u.workers.lookup c = none := by
    intro hworkers
    rw [hworkers, List.lookup_nil]
  have helse : ∀ {k stage}, c ≠ k → u.workers = [(k, stage)] → u.workers.lookup c = none := by
    intro k stage hck hworkers
    rw [hworkers, List.lookup_cons, beq_false_of_ne hck]
    rfl
  cases h.phase with
  | idle hworkers _ => exact .none (hother (hidle hworkers))
  | checked _ hworkers _ _ => exact .none (hother (hidle hworkers))
  | ended _ hworkers _ _ _ => exact .none (hother (hidle hworkers))
  | @checking k hk hworkers hdialog hqueue =>
      by_cases hck : c = k
      · subst hck
        exact .checking hk hworkers hdialog hqueue
      · exact .none (hother (helse hck hworkers))
  | @installing k stage info label downloaded total hk hworkers hinfo hdialog hqueue =>
      by_cases hck : c = k
      · subst hck
        exact .installing hk hworkers hinfo hdialog hqueue
      · exact .none (hother (helse hck hworkers))

/-- The dialog after a step of the only thread there is. -/
def worked (u : Flow inst) (c : ℕ) (w : Worked inst) : Flow inst :=
  { u with
    workers := (w.stage.map (c, ·)).toList
    queue := Function.update u.queue c (u.queue c ++ w.sends)
    files := w.files c u.files }

/-- A step of the only thread there is, spelled out: what it comes to is put into the dialog's
state. -/
theorem workerStep_of_worker {c : ℕ} {stage : WorkerStage inst} (hworkers : u.workers = [(c, stage)])
    (move : WorkMove inst) : u.workerStep parse current target c move =
      u.worked c (work parse inst current target u.files.fs stage move) := by
  simp [Flow.workerStep, Flow.worked, hworkers]

/-- A thread's messages go to the end of its own channel. -/
theorem worked_queue (u : Flow inst) (c : ℕ) (w : Worked inst) :
    (u.worked c w).queue c = u.queue c ++ w.sends := Function.update_self ..

/-- After its step the only thread there is has gone on. -/
theorem worker_eq {c k : ℕ} {next : Option (WorkerStage inst)} {stage : WorkerStage inst}
    (h : (next.map (c, ·)).toList = [(k, stage)]) : k = c ∧ next = some stage := by
  cases next with
  | none => cases h
  | some stage' =>
      cases h
      exact ⟨rfl, rfl⟩

/-- Order survives a step of a thread. A check sends its answer and is over; an installation tells
of its progress until it ends. -/
theorem Orderly.workerStep (h : u.Orderly) (c : ℕ) (move : WorkMove inst) :
    (u.workerStep parse current target c move).Orderly := by
  cases h.works parse current target c move with
  -- a step of no thread there is
  | none hsame => rwa [hsame]
  | checking hc hworkers hdialog hqueue =>
      rw [workerStep_of_worker parse current target hworkers]
      refine ⟨fresh_update h.fresh hc _, ?_⟩
      cases move with
      | check releases =>
          -- a check answers with its only step, and is over then
          refine .checked (r := Update.check parse current target releases) hc rfl hdialog ?_
          rw [worked_queue, hqueue]
          rfl
      | _ =>
          refine .checking hc rfl hdialog ?_
          rw [worked_queue, hqueue]
          rfl
  | @installing stage info label downloaded total hc hworkers hinfo hdialog hqueue =>
      have hreports : Files.Reports info (work parse inst current target u.files.fs stage move) :=
        Files.reports_work parse current target hinfo move
      rw [workerStep_of_worker parse current target hworkers]
      generalize work parse inst current target u.files.fs stage move = w at hreports
      refine ⟨fresh_update h.fresh hc _, ?_⟩
      -- an update goes on, with nothing but progress to tell, or ends with one message that is none
      cases hreports with
      | on hstage hinfo' hsends =>
          refine .installing hc (by rw [worked, hstage]; rfl) hinfo' hdialog fun m hm => ?_
          rw [worked_queue] at hm
          rcases List.mem_append.mp hm with hm | hm
          · exact hqueue m hm
          · exact hsends m hm
      | @ended r hstage hsends =>
          refine .ended (r := r) hc (by rw [worked, hstage]; rfl) hdialog ?_ hqueue
          rw [worked_queue, hsends]

/-- **At most one thread is at work**, it is the one the dialog waits for, and a dialog that waits is
waiting for a thread that is at work or has just said how it ended. -/
structure Attended (u : Flow inst) : Prop where
  one : u.workers.length ≤ 1
  attended : ∀ w ∈ u.workers, u.dialog.bind UpdateState.rx = some w.1
  answered : ∀ c, u.dialog.bind UpdateState.rx = some c →
    (∃ stage, (c, stage) ∈ u.workers) ∨ ∃ m ∈ u.queue c, m.isProgress = false

/-- There is a thread, and the dialog waits for it. -/
theorem attended_of_worker {c : ℕ} {stage : WorkerStage inst} (hworkers : u.workers = [(c, stage)])
    (hrx : u.dialog.bind UpdateState.rx = some c) : u.Attended where
  one := by rw [hworkers, List.length_singleton]
  attended w hw := by
    rw [hworkers] at hw
    rw [List.mem_singleton.mp hw, hrx]
  answered k hk := by
    rw [hrx, Option.some.injEq] at hk
    rw [← hk, hworkers]
    exact Or.inl ⟨stage, List.mem_singleton_self _⟩

/-- There is none, and the dialog waits for what one has sent. -/
theorem attended_of_sent {c : ℕ} (hworkers : u.workers = []) (hrx : u.dialog.bind UpdateState.rx = some c)
    {m : WorkerMsg} (hm : m ∈ u.queue c) (hend : m.isProgress = false) : u.Attended where
  one := by rw [hworkers, List.length_nil]; exact Nat.zero_le 1
  attended w hw := by
    rw [hworkers] at hw
    cases hw
  answered k hk := by
    rw [hrx, Option.some.injEq] at hk
    rw [← hk]
    exact Or.inr ⟨m, hm, hend⟩

/-- Good order is what makes the dialog attend to its thread: every phase has one thread at most,
and the channel it sends to is the one listened on. -/
theorem Orderly.attended (h : u.Orderly) : u.Attended := by
  cases h.phase with
  | idle hworkers hrx =>
      refine ⟨by rw [hworkers, List.length_nil]; exact Nat.zero_le 1, fun w hw => ?_, fun c hc => ?_⟩
      · rw [hworkers] at hw
        cases hw
      · rw [hrx] at hc
        cases hc
  | checking _ hworkers hdialog _ => exact attended_of_worker hworkers (by rw [hdialog]; rfl)
  | installing _ hworkers _ hdialog _ => exact attended_of_worker hworkers (by rw [hdialog]; rfl)
  | @checked c r _ hworkers hdialog hqueue =>
      refine attended_of_sent (m := .checked r) hworkers (by rw [hdialog]; rfl) ?_ rfl
      rw [hqueue]
      exact List.mem_singleton_self _
  | @ended c info label downloaded total sent r _ hworkers hdialog hqueue _ =>
      refine attended_of_sent (m := .done r) hworkers (by rw [hdialog]; rfl) ?_ rfl
      rw [hqueue]
      exact List.mem_append_right _ (List.mem_singleton_self _)

/-! ## The releases and the binaries -/

variable (given : ℕ → List GhRelease → Prop) (fs₀ : Fs)

/-- What this thread's check has found: the newest published release of those it was given, called newer
exactly if it is newer than what runs. -/
def Offered (k : ℕ) (result : CheckResult) : Prop :=
  ∃ releases v, given k releases ∧ Offer parse target releases result.info v ∧
    (result.newer = true ↔ ∃ w, tagVersion parse current = some w ∧ w < v)

/-- The update of the thread with this number is the newest published release of those that the check
before it was given, and newer than what runs. -/
def News (c : ℕ) (info : UpdateInfo) : Prop :=
  ∃ k releases v w, k + 1 = c ∧ given k releases ∧ Offer parse target releases info v ∧
    tagVersion parse current = some w ∧ w < v

/-- **What the dialog says of the releases and of the binaries is so.** -/
def Truthful (u : Flow inst) (o o' : ℕ) : Prop :=
  match u.dialog with
  | some (.ready result) => ∃ k, k + 1 = u.spawned ∧ Offered parse current target given k result
  | some (.installing c info _ _ _) => News parse current target given c info
  | some (.installed tag _ exe) => exe = inst.exe ∧ ∃ c info x, c + 1 = u.spawned ∧
      u.files.unpacked c = some (info, x) ∧ tag = info.tag ∧ o = c + 1 ∧ u.files.SiblingDone c o'
  -- the running binary is none that the last thread has brought
  | some (.installFailed _) => ∀ c, o = c + 1 → c + 1 < u.spawned
  | _ => True

/-- What holds of the releases and the binaries between any two steps: where the binaries are from, how far
the thread at work is, what has been sent and not heard yet, and what the dialog says. -/
structure Sound (u : Flow inst) (o o' : ℕ) : Prop extends u.Orderly where
  placed : u.files.Placed fs₀ o o'
  exe_le : o ≤ u.spawned
  sibling_le : o' ≤ u.spawned
  work : ∀ c stage, u.workers = [(c, stage)] → u.files.AtWork c o o' stage
  offered : ∀ c result, u.dialog = some (.checking c) → .checked (.ok result) ∈ u.queue c →
    Offered parse current target given c result
  outcome : ∀ c info label downloaded total r, u.dialog = some (.installing c info label downloaded total) →
    .done r ∈ u.queue c → u.files.Over c info o o' r
  truthful : u.Truthful parse current target given o o'
  news : ∀ c info x, u.files.unpacked c = some (info, x) → News parse current target given c info

variable {parse current target given fs₀} {o o' : ℕ}

/-- What counts as given goes on to count, so what was said of the releases stays so. -/
theorem Sound.mono {given' : ℕ → List GhRelease → Prop} (h : u.Sound parse current target given fs₀ o o')
    (hgiven : ∀ c releases, given c releases → given' c releases) :
    u.Sound parse current target given' fs₀ o o' := by
  have hoffered : ∀ {k result}, Offered parse current target given k result →
      Offered parse current target given' k result := by
    rintro k result ⟨releases, v, hk, hoffer⟩
    exact ⟨releases, v, hgiven k releases hk, hoffer⟩
  have hnews : ∀ {c info}, News parse current target given c info →
      News parse current target given' c info := by
    rintro c info ⟨k, releases, v, w, hkc, hk, hoffer⟩
    exact ⟨k, releases, v, w, hkc, hgiven k releases hk, hoffer⟩
  refine { h with
    offered := fun c result hdialog hsent => hoffered (h.offered c result hdialog hsent)
    truthful := ?_
    news := fun c info x hx => hnews (h.news c info x hx) }
  have htruth := h.truthful
  -- what the dialog says is of releases only at two of its states
  unfold Truthful at htruth ⊢
  split
  · next result hdialog =>
    rw [hdialog] at htruth
    obtain ⟨k, hk, hoffer⟩ := htruth
    exact ⟨k, hk, hoffered hoffer⟩
  · next c info label downloaded total hdialog =>
    rw [hdialog] at htruth
    exact hnews htruth
  · next tag elevated exe hdialog =>
    rw [hdialog] at htruth
    exact htruth
  · next e hdialog =>
    rw [hdialog] at htruth
    exact htruth
  · trivial

/-- A check is started, which says nothing of releases yet and touches no file. -/
theorem Sound.spawnCheck (h : u.Sound parse current target given fs₀ o o')
    (hrx : u.dialog.bind UpdateState.rx = none) :
    u.spawnCheck.Sound parse current target given fs₀ o o' where
  toOrderly := h.toOrderly.spawnCheck hrx
  placed := h.placed
  exe_le := Nat.le_succ_of_le h.exe_le
  sibling_le := Nat.le_succ_of_le h.sibling_le
  work c stage hworkers := by
    rw [Flow.spawnCheck, h.phase.workers_eq_nil hrx] at hworkers
    cases hworkers
    exact ⟨h.exe_le, h.sibling_le⟩
  offered c result hdialog hsent := by
    cases hdialog
    have hqueue : u.queue u.spawned = [] := h.fresh _ le_rfl
    rw [Flow.spawnCheck, hqueue] at hsent
    cases hsent
  outcome c info label downloaded total r hdialog _ := by cases hdialog
  truthful := True.intro
  news := h.news

/-- The installation of an update is started, for one that is news; no file has been touched. -/
theorem Sound.spawnInstall {info : UpdateInfo} (h : u.Sound parse current target given fs₀ o o')
    (hrx : u.dialog.bind UpdateState.rx = none)
    (hnews : News parse current target given u.spawned info) :
    (u.spawnInstall info).Sound parse current target given fs₀ o o' where
  toOrderly := h.toOrderly.spawnInstall hrx info
  placed := h.placed
  exe_le := Nat.le_succ_of_le h.exe_le
  sibling_le := Nat.le_succ_of_le h.sibling_le
  work c stage hworkers := by
    rw [Flow.spawnInstall, h.phase.workers_eq_nil hrx] at hworkers
    cases hworkers
    exact ⟨h.exe_le, h.sibling_le⟩
  offered c result hdialog _ := by cases hdialog
  outcome c info' label downloaded total r hdialog hsent := by
    cases hdialog
    have hqueue : u.queue u.spawned = [] := h.fresh _ le_rfl
    rw [Flow.spawnInstall, hqueue] at hsent
    cases hsent
  truthful := hnews
  news := h.news

/-- A check that is started says nothing yet and touches no file, so what was so stays so. -/
theorem Sound.check (h : u.Sound parse current target given fs₀ o o') :
    u.check.Sound parse current target given fs₀ o o' := by
  rcases u.check_cases with ⟨hrx, heq⟩ | heq
  · rw [heq]
    exact h.spawnCheck hrx
  · rwa [heq]

/-- What is installed is what was offered as newer, and so it is news. -/
theorem Sound.install (h : u.Sound parse current target given fs₀ o o') :
    u.install.Sound parse current target given fs₀ o o' := by
  rcases u.install_cases with ⟨result, hdialog, hnewer, heq⟩ | heq
  · have htruth := h.truthful
    rw [Truthful, hdialog] at htruth
    obtain ⟨k, hk, releases, v, hgiven, hoffer, hiff⟩ := htruth
    obtain ⟨w, hw, hlt⟩ := hiff.mp hnewer
    rw [heq]
    exact h.spawnInstall (by rw [hdialog]; rfl) ⟨k, releases, v, w, hk, hgiven, hoffer, hw, hlt⟩
  · rwa [heq]

/-- What has been heard is no longer under way. -/
theorem Sound.heard {state : UpdateState} {c : ℕ} (h : u.Sound parse current target given fs₀ o o')
    (horderly : (u.heard state c).Orderly)
    (hchannel : state.rx = none ∨ state.rx = some c)
    (htruth : (u.heard state c).Truthful parse current target given o o') :
    (u.heard state c).Sound parse current target given fs₀ o o' where
  toOrderly := horderly
  placed := h.placed
  exe_le := h.exe_le
  sibling_le := h.sibling_le
  work := h.work
  offered k result hdialog hsent := by
    obtain rfl : state = .checking k := Option.some.inj hdialog
    rcases hchannel with hrx | hrx
    · cases hrx
    · obtain rfl : k = c := Option.some.inj hrx
      rw [heard_queue] at hsent
      cases hsent
  outcome k info label downloaded total r hdialog hsent := by
    obtain rfl : state = .installing k info label downloaded total := Option.some.inj hdialog
    rcases hchannel with hrx | hrx
    · cases hrx
    · obtain rfl : k = c := Option.some.inj hrx
      rw [heard_queue] at hsent
      cases hsent
  truthful := htruth
  news := h.news

/-- A frame shows what has been sent: the offer of a check, the progress of an update, or its end.
Each was so when it was sent. -/
theorem Sound.poll (h : u.Sound parse current target given fs₀ o o') :
    u.poll.Sound parse current target given fs₀ o o' := by
  have hpolled := h.toOrderly.polled
  generalize u.poll = u' at hpolled
  have horderly := hpolled.orderly h.toOrderly
  cases hpolled with
  | same => exact h
  | @checked c r hc hworkers hdialog hsent =>
      cases r with
      | ok result => exact h.heard horderly (Or.inl rfl) ⟨c, hc, h.offered c result hdialog hsent⟩
      | error e => exact h.heard horderly (Or.inl rfl) True.intro
  | progress hc hworkers hinfo hdialog =>
      have htruth := h.truthful
      rw [Truthful, hdialog] at htruth
      exact h.heard horderly (Or.inr rfl) htruth
  | @ended c info label downloaded total r hc hworkers hdialog hsent =>
      have hover := h.outcome c info label downloaded total r hdialog hsent
      cases r with
      | ok result =>
          obtain ⟨tag, elevated⟩ := result
          obtain ⟨htag, ⟨x, hx⟩, ho, hdone⟩ := hover
          exact h.heard horderly (Or.inl rfl) ⟨rfl, c, info, x, hc, hx, htag, ho, hdone⟩
      | error e =>
          -- the running binary is from an earlier thread than this one, which is the last
          obtain ⟨ho, -⟩ := hover
          refine h.heard horderly (Or.inl rfl) fun k hk => ?_
          show k + 1 < u.spawned
          omega

/-- What a check comes to is an offer of what it was given. -/
theorem offered_of_check {c : ℕ} {listed : Except String (List GhRelease)} {result : CheckResult}
    (hgiven : ∀ releases, listed = .ok releases → given c releases)
    (h : Update.check parse current target listed = .ok result) :
    Offered parse current target given c result := by
  obtain ⟨releases, v, hlisted, hoffer, hnewer⟩ := check_ok h
  exact ⟨releases, v, hgiven releases hlisted, hoffer, hnewer⟩

/-- **A check takes a step**: what it sends is an offer of the releases it is given. -/
theorem Sound.checkStep (h : u.Sound parse current target given fs₀ o o') {c : ℕ} {move : WorkMove inst}
    (hgiven : ∀ releases, move = .check (.ok releases) → given c releases)
    (hworkers : u.workers = [(c, .checking)]) (hdialog : u.dialog = some (.checking c))
    (hqueue : u.queue c = []) :
    (u.workerStep parse current target c move).Sound parse current target given fs₀ o o' := by
  have horderly := h.toOrderly.workerStep parse current target c move
  have htruth := h.truthful
  rw [Truthful, hdialog] at htruth
  rw [workerStep_of_worker parse current target hworkers] at horderly ⊢
  -- a step of a check touches no file
  have hfiles : (Update.work parse inst current target u.files.fs .checking move).files c u.files = u.files := by
    cases move <;> rfl
  refine ⟨horderly, ?_, h.exe_le, h.sibling_le, fun k stage hk => ?_, fun k result hk hsent => ?_,
    fun k info label downloaded total r hk => ?_, ?_, ?_⟩
  · rw [worked, hfiles]
    exact h.placed
  · have hle := h.work c .checking hworkers
    obtain ⟨rfl, hstage⟩ := worker_eq hk
    rw [worked, hfiles]
    cases move with
    | check releases => cases hstage
    | _ =>
        cases hstage
        exact hle
  · rw [worked, hdialog] at hk
    obtain rfl : c = k := by simpa using hk
    rw [worked_queue, hqueue, List.nil_append] at hsent
    cases move with
    | check listed =>
        have hresult : Update.check parse current target listed = .ok result := by
          simpa [Update.work, eq_comm] using hsent
        exact offered_of_check (fun releases hlisted => hgiven releases (by rw [hlisted])) hresult
    | _ => cases hsent
  · rw [worked, hdialog] at hk
    cases hk
  · rw [Truthful, worked, hdialog]
    trivial
  · rw [worked, hfiles]
    exact h.news

/-- **The update takes a step**: what it says is of the update it is for, and at its end of what has
become of the binaries. -/
theorem Sound.installStep (h : u.Sound parse current target given fs₀ o o') {c : ℕ}
    {stage : WorkerStage inst} {info : UpdateInfo} {label : String} {downloaded total : ℕ}
    (hc : c + 1 = u.spawned) (hworkers : u.workers = [(c, stage)]) (hinfo : stage.info = some info)
    (hdialog : u.dialog = some (.installing c info label downloaded total))
    (hqueue : ∀ m ∈ u.queue c, m.isProgress = true) (move : WorkMove inst) :
    ∃ p p', (u.workerStep parse current target c move).Sound parse current target given fs₀ p p' := by
  have horderly := h.toOrderly.workerStep parse current target c move
  have htruth := h.truthful
  rw [Truthful, hdialog] at htruth
  have hreports : Files.Reports info (Update.work parse inst current target u.files.fs stage move) :=
    Files.reports_work parse current target hinfo move
  have hwent := Files.went_work parse current target hinfo h.placed (h.work c stage hworkers) move
  rw [workerStep_of_worker parse current target hworkers] at horderly ⊢
  generalize Update.work parse inst current target u.files.fs stage move = w at hreports hwent horderly ⊢
  have hnews : ∀ {f : Files inst}, f.Adds c u.files info → ∀ k info' x, f.unpacked k = some (info', x) →
      News parse current target given k info' := by
    intro f hadds k info' x hk
    rcases hadds k info' x hk with hold | ⟨rfl, rfl⟩
    · exact h.news k info' x hold
    · exact htruth
  -- the dialog goes on waiting for this thread
  have htruth' : ∀ w p p', Truthful parse current target given (u.worked c w) p p' := by
    intro w p p'
    rw [Truthful, worked, hdialog]
    exact htruth
  have hoffered : ∀ w k result, (u.worked c w).dialog ≠ some (.checking k) ∨
      Offered parse current target given k result := by
    intro w k result
    rw [worked, hdialog]
    exact Or.inl (by simp)
  have hsame : ∀ {w k info' label' downloaded' total'},
      (u.worked c w).dialog = some (.installing k info' label' downloaded' total') →
        k = c ∧ info' = info := by
    intro w k info' label' downloaded' total' hk
    rw [worked, hdialog] at hk
    cases hk
    exact ⟨rfl, rfl⟩
  have hdone : ∀ {sent : List WorkerMsg} {r}, .done r ∈ u.queue c ++ sent → .done r ∈ sent := by
    intro sent r hr
    rcases List.mem_append.mp hr with hr | hr
    · cases hqueue _ hr
    · exact hr
  cases hwent with
  | @on stage' p p' hstage hadds hplaced hwork =>
      obtain ⟨hp, hp'⟩ := hwork.le
      refine ⟨p, p', horderly, hplaced, hp.trans hc.le, hp'.trans hc.le, fun k stage hk => ?_,
        fun k result hk _ => (hoffered w k result).resolve_left fun hne => hne hk,
        fun k info' label' downloaded' total' r hk hsent => ?_, htruth' _ _ _, hnews hadds⟩
      · obtain ⟨rfl, hnext⟩ := worker_eq hk
        obtain rfl := Option.some.inj (hstage.symm.trans hnext)
        exact hwork
      · obtain ⟨rfl, rfl⟩ := hsame hk
        rw [worked_queue] at hsent
        cases hreports with
        | on _ _ hprogress => cases hprogress _ (hdone hsent)
        | ended hnone _ =>
            rw [hstage] at hnone
            cases hnone
  | @ended r p p' hstage hsends hadds hplaced hover =>
      obtain ⟨hp, hp'⟩ := hover.le
      refine ⟨p, p', horderly, hplaced, hp.trans hc.le, hp'.trans hc.le, fun k stage hk => ?_,
        fun k result hk _ => (hoffered w k result).resolve_left fun hne => hne hk,
        fun k info' label' downloaded' total' r' hk hsent => ?_, htruth' _ _ _, hnews hadds⟩
      · obtain ⟨-, hnext⟩ := worker_eq hk
        rw [hstage] at hnext
        cases hnext
      · obtain ⟨rfl, rfl⟩ := hsame hk
        rw [worked_queue, hsends] at hsent
        obtain rfl : r' = r := by simpa using hdone hsent
        exact hover

/-- A step of a thread may change where the binaries are from, and what was so of them and of the
releases stays so, if those its check is given count as given. -/
theorem Sound.workerStep (h : u.Sound parse current target given fs₀ o o') (c : ℕ) (move : WorkMove inst)
    (hgiven : ∀ releases, move = .check (.ok releases) → u.workers.lookup c = some .checking →
      given c releases) :
    ∃ p p', (u.workerStep parse current target c move).Sound parse current target given fs₀ p p' := by
  cases h.toOrderly.works parse current target c move with
  | none hsame => exact ⟨o, o', by rwa [hsame]⟩
  | checking _ hworkers hdialog hqueue =>
      have hlookup : u.workers.lookup c = some .checking := by rw [hworkers, List.lookup_cons_self]
      exact ⟨o, o', h.checkStep (fun releases heq => hgiven releases heq hlookup) hworkers hdialog hqueue⟩
  | installing hc hworkers hinfo hdialog hqueue =>
      exact h.installStep hc hworkers hinfo hdialog hqueue move

/-- What the helper is given is a plan as `apply_plan` takes it. -/
def PlansWell (u : Flow inst) : Prop :=
  ∀ w ∈ u.workers, ∀ tag, (Install.Plan.mk tag w.2.moves).WellFormed u.files.fs

/-- Whatever is planned for the helper is well formed, whichever thread it is that has planned it.
-/
theorem Sound.plansWell (h : u.Sound parse current target given fs₀ o o') : u.PlansWell := by
  intro w hw tag
  -- one thread is at work at most
  have hone := h.toOrderly.attended.one
  cases hworkers : u.workers with
  | nil =>
      rw [hworkers] at hw
      cases hw
  | cons w' rest =>
      rw [hworkers, List.length_cons, Nat.succ_le_succ_iff, Nat.le_zero, List.length_eq_zero_iff] at hone
      rw [hone] at hworkers
      rw [hworkers] at hw
      obtain rfl := List.mem_singleton.mp hw
      exact (h.work w.1 w.2 hworkers).wellFormed h.placed.installed tag

end Flow

namespace Updater

variable {inst : Installation} {V : Type} [LinearOrder V] {parse : String → Option V}
  {current target : String} {u : Updater inst}

/-- Closing the dialog leaves its state, its threads and the files as they are. -/
theorem close_flow : (u.click .close).flow = u.flow := by
  simp only [click]
  split <;> rfl

/-- Starting the new window leaves the dialog of the old one as it is, whether or not it could be
started. -/
theorem relaunch_flow (spawned : Bool) : (u.click (.relaunch spawned)).flow = u.flow := by
  simp only [click]
  split <;> rfl

/-- **What a step does to the dialog and its threads**: a check or an installation may be started, a frame
may be drawn, a thread may take a step, or nothing of them changes. -/
inductive Stepped (parse : String → Option V) (current target : String) (u : Updater inst)
    (input : UpdaterInput inst) : Flow inst → Prop
  | same : Stepped parse current target u input u.flow
  | check : Stepped parse current target u input u.flow.check
  | install : Stepped parse current target u input u.flow.install
  | poll : Stepped parse current target u input u.flow.poll
  | work {c : ℕ} {move : WorkMove inst} (hgone : u.gone = false) (hinput : input = .work c move) :
      Stepped parse current target u input (u.flow.workerStep parse current target c move)

/-- Every step is one of these. Clicks on what is not drawn, and steps after the process has ended,
change nothing. -/
theorem stepped (parse : String → Option V) (current target : String) (u : Updater inst)
    (input : UpdaterInput inst) :
    Stepped parse current target u input (u.step parse current target input).flow := by
  unfold Updater.step
  cases hgone : u.gone with
  | true => exact .same
  | false =>
      rw [if_neg Bool.false_ne_true]
      cases input with
      | openDialog => exact .check
      | poll => exact .poll
      | work c move => exact .work hgone rfl
      | click c =>
          dsimp only
          cases u.shown with
          | false => exact .same
          | true =>
              rw [if_pos rfl]
              cases c with
              | closeWindow => exact .same
              | close =>
                  rw [close_flow]
                  exact .same
              | check => exact .check
              | install => exact .install
              | relaunch spawned =>
                  rw [relaunch_flow]
                  exact .same

/-- **Order is kept by every step**, whatever the files are. -/
theorem orderly_step (h : u.flow.Orderly) (input : UpdaterInput inst) :
    (u.step parse current target input).flow.Orderly := by
  have hstepped := stepped parse current target u input
  generalize (u.step parse current target input).flow = u' at hstepped
  cases hstepped with
  | same => exact h
  | check => exact h.check
  | install => exact h.install
  | poll => exact h.polled.orderly h
  | @work c move _ _ => exact h.workerStep parse current target c move

/-- **What one step preserves**, if what a check is given in it counts as given. -/
theorem sound_step {given : ℕ → List GhRelease → Prop} {fs₀ : Fs} {o o' : ℕ}
    (h : u.flow.Sound parse current target given fs₀ o o') (input : UpdaterInput inst)
    (hgiven : ∀ c releases, input = .work c (.check (.ok releases)) → u.gone = false →
      u.flow.workers.lookup c = some .checking → given c releases) :
    ∃ p p', (u.step parse current target input).flow.Sound parse current target given fs₀ p p' := by
  have hstepped := stepped parse current target u input
  generalize (u.step parse current target input).flow = u' at hstepped
  cases hstepped with
  | same => exact ⟨o, o', h⟩
  | check => exact ⟨o, o', h.check⟩
  | install => exact ⟨o, o', h.install⟩
  | poll => exact ⟨o, o', h.poll⟩
  | @work c move hgone hinput =>
      refine h.workerStep c move fun releases hmove hlookup => ?_
      exact hgiven c releases (by rw [hinput, hmove]) hgone hlookup

variable (parse current target) (fs : Fs) (inputs : List (UpdaterInput inst)) (n : ℕ)

/-- The window after `n` steps of a run, from the files it came up over. -/
abbrev run : Updater inst := Run.after (step parse current target) (start inst fs) inputs n

/-- **Run lemma**: the dialog and its threads are in good order after every step of a run. -/
theorem run_orderly : (run parse current target fs inputs n).flow.Orderly :=
  Run.invariant (P := fun u : Updater inst => u.flow.Orderly) ⟨fun _ _ => rfl, .idle rfl rfl⟩
    (fun _ a _ h => orderly_step h a) n

/-- **There is at most one thread**, whatever is clicked, opened and closed and whatever the files are, and
the dialog waits for it; and a dialog never waits for nothing. -/
theorem one_thread : (run parse current target fs inputs n).flow.Attended :=
  (run_orderly parse current target fs inputs n).attended

/-- Before step `n` the thread with this number was at its check and was given these releases. -/
def Listed (c : ℕ) (releases : List GhRelease) : Prop :=
  ∃ k < n, inputs[k]? = some (.work c (.check (.ok releases))) ∧
    (run parse current target fs inputs k).gone = false ∧
    (run parse current target fs inputs k).flow.workers.lookup c = some .checking

/-- What has been listed up to some step has been listed up to the next. -/
theorem Listed.succ {parse : String → Option V} {current target : String} {fs : Fs}
    {inputs : List (UpdaterInput inst)} {n c : ℕ} {releases : List GhRelease}
    (h : Listed parse current target fs inputs n c releases) :
    Listed parse current target fs inputs (n + 1) c releases := by
  obtain ⟨k, hk, hinput⟩ := h
  exact ⟨k, Nat.lt_succ_of_lt hk, hinput⟩

/-- **What holds throughout every run** where Synbad is installed. -/
theorem run_sound (installed : inst.Installed fs) :
    ∃ o o', (run parse current target fs inputs n).flow.Sound parse current target
      (Listed parse current target fs inputs n) fs o o' := by
  induction n with
  | zero =>
      -- both binaries are the first ones
      refine ⟨0, 0, ⟨fun _ _ => rfl, .idle rfl rfl⟩, ⟨.first rfl, .first rfl, Or.inl le_rfl, installed⟩,
        le_rfl, le_rfl, fun _ _ h => ?_, fun _ _ h => ?_, fun _ _ _ _ _ _ h => ?_, True.intro,
        fun _ _ _ h => ?_⟩
      · cases h
      · cases h
      · cases h
      · cases h
  | succ n ih =>
      obtain ⟨o, o', h⟩ := ih
      have hmono := h.mono fun c releases => Listed.succ (n := n)
      cases hinput : inputs[n]? with
      | none =>
          refine ⟨o, o', ?_⟩
          rwa [run, Run.after_succ_none hinput]
      | some input =>
          rw [run, Run.after_succ hinput]
          refine sound_step hmono input fun c releases heq hgone hlookup => ?_
          exact ⟨n, Nat.lt_succ_self n, by rw [hinput, heq], hgone, hlookup⟩

/-- **Every plan the helper is given is well formed**, as what `apply_plan` promises asks for. -/
theorem plans_well (fs : {fs : Fs // inst.Installed fs}) :
    (run parse current target fs.val inputs n).flow.PlansWell := by
  obtain ⟨o, o', h⟩ := run_sound parse current target fs.val inputs n fs.property
  exact h.plansWell

end Updater

end Update

end Synbad
