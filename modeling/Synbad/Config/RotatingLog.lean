import Synbad.Lib.Bytes
import Mathlib.Data.List.Infix
import Mathlib.Logic.Function.Basic

/-! # The rotating log

`RotatingLog` keeps a log file and three backups, none longer than its limit: what an older writer
left is trimmed when the log is opened, and a write is cut where the file is full, the files moving up
by one. The four files, oldest first, are what is left of everything that was written.

The write loop subtracts the bytes of the log from its limit, which would underflow if the counter
were wrong, and it ends only if each of its turns writes something. Both follow from what holds
between two turns (`LogFile.Wf`), which a turn keeps (`pass_spec`, `writeLoop_rule`). A rotation is a
shift of the files whichever of them exist (`disk_rotate`), and a turn drops bytes at the old end only
(`concat_settled`).

`bounded_suffix` is about any sequence of writes and opens: it runs through, no file is ever over the
limit, and what the files hold together is a suffix of what they held at the last open and what was
written since. How much of it is left is said by `newest_eq`: full backups as far as the stream has
filled them, and what its last bytes make of the log. -/

namespace Synbad

namespace RotatingLog

/-! ## The source -/

/-- `BACKUPS`: how many older files are kept besides the log. -/
def BACKUPS : ℕ := 3

/-- The files by their index: `0` is the log itself, `k` the backup whose name ends in `.k`. -/
abbrev Files := ℕ → Option Bytes

namespace Files

/-- What can be read at a path, nothing where there is no file. -/
def content (d : Files) (index : ℕ) : Bytes := (d index).getD []

/-- `fs::remove_file`: nothing is left under the name. -/
def remove (d : Files) (index : ℕ) : Files := Function.update d index none

/-- `fs::rename`, over whatever is there: the file has the new name and nothing has the old one. -/
def rename (d : Files) (old new : ℕ) : Files :=
  Function.update (Function.update d new (d old)) old none

/-- Opening with `create`: an empty file where there is none. -/
def create (d : Files) (index : ℕ) : Files := Function.update d index (some (d.content index))

/-- `write_all` on a file opened with `append`: the bytes behind what is in the file. -/
def append (d : Files) (index : ℕ) (bytes : Bytes) : Files :=
  Function.update d index (some (d.content index ++ bytes))

end Files

/-- `trim_existing`: a file over the limit has its last `limit` bytes written over its start and is
cut off behind them. -/
def trimExisting (limit : ℕ) (d : Files) (index : ℕ) : Files :=
  match d index with
  | none => d
  | some bytes =>
      if limit < bytes.length then
        let tail := bytes.drop (bytes.length - limit)
        Function.update d index (some ((tail ++ bytes.drop tail.length).take limit))
      else d

/-- `LogFile`: the files, whether the log is open, how many bytes it is counted to have, and its
limit. -/
structure LogFile where
  disk : Files
  file : Bool
  bytes : ℕ
  limit : ℕ

/-- `with_limit`: the log and its backups are trimmed, then the log is opened at its end. -/
def withLimit (limit : ℕ) (d : Files) : LogFile :=
  let trimmed := ((List.range (BACKUPS + 1)).foldl (trimExisting limit) d).create 0
  ⟨trimmed, true, (trimmed.content 0).length, limit⟩

namespace LogFile

/-- One turn of the loop in `rotate`: a backup that exists takes the next name. -/
def moveUp (d : Files) (index : ℕ) : Files :=
  if (d index).isSome then d.rename index (index + 1) else d

/-- `rotate`: the oldest backup goes, the others and the log move up by one name. -/
def rotate (log : LogFile) : LogFile :=
  let d := [2, 1].foldl moveUp (log.disk.remove BACKUPS)
  { log with disk := moveUp d 0, file := false, bytes := 0 }

/-- Opening the log again after a rotation, which has closed it; one that is open stays as it is. -/
def reopen (log : LogFile) : LogFile :=
  if log.file then log else { log with disk := log.disk.create 0, file := true }

/-- One turn of the write loop on what remains to be written; `none` where `limit - bytes` would
underflow. -/
def pass (log : LogFile) (remaining : Bytes) : Option (LogFile × Bytes) :=
  let log := if log.limit ≤ log.bytes then log.rotate else log
  let log := log.reopen
  if log.limit < log.bytes then none
  else
    let size := min remaining.length (log.limit - log.bytes)
    some ({ log with disk := log.disk.append 0 (remaining.take size), bytes := log.bytes + size },
      remaining.drop size)

/-- The write loop, turn by turn until nothing remains; `none` where a turn fails or the turns run
out before the input does. -/
def writeLoop : ℕ → LogFile → Bytes → Option LogFile
  | _, log, [] => some log
  | 0, _, _ :: _ => none
  | turns + 1, log, b :: rest =>
      (log.pass (b :: rest)).bind fun (log, remaining) => writeLoop turns log remaining

/-- `write`, with no more turns than bytes, and the count it returns. -/
def write (log : LogFile) (bytes : Bytes) : Option (LogFile × ℕ) :=
  (writeLoop bytes.length log bytes).map fun log => (log, bytes.length)

end LogFile

/-! ## What a rotation leaves -/

namespace Files

variable (d : Files) (bytes : Bytes)

/-- Every file one name up, the log itself gone and the oldest backup dropped. -/
def shift : Files
  | 0 => none
  | index + 1 => if index + 1 ≤ BACKUPS then d index else d (index + 1)

@[simp] theorem content_shift_zero : d.shift.content 0 = [] := rfl

/-- A backup holds what the name below it held. -/
theorem content_shift_succ {index : ℕ} (h : index < 3) :
    d.shift.content (index + 1) = d.content index := by
  have hle : index + 1 ≤ BACKUPS := h
  show ((if index + 1 ≤ BACKUPS then d index else d (index + 1)).getD []) = _
  rw [if_pos hle, content]

/-- A rotation does not touch names past the last backup. -/
theorem shift_beyond {index : ℕ} (h : 3 < index) : d.shift index = d index := by
  obtain ⟨k, rfl⟩ : ∃ k, index = k + 1 := ⟨index - 1, by omega⟩
  have hgt : ¬ k + 1 ≤ BACKUPS := by
    show ¬ k + 1 ≤ 3
    omega
  exact if_neg hgt

/-- The log after an append is what it held with the bytes behind it. -/
@[simp] theorem content_append_zero : (d.append 0 bytes).content 0 = d.content 0 ++ bytes := by
  rw [content, append, Function.update_self, Option.getD_some]

/-- An append to the log leaves the backups alone. -/
theorem content_append_ne {index : ℕ} (h : index ≠ 0) :
    (d.append 0 bytes).content index = d.content index := by
  rw [content, append, Function.update_of_ne h, content]

/-- Creating the log where there is none changes what can be read of no file. -/
@[simp] theorem content_create (index : ℕ) : (d.create 0).content index = d.content index := by
  rcases eq_or_ne index 0 with rfl | h
  · rw [content, create, Function.update_self, Option.getD_some]
  · rw [content, create, Function.update_of_ne h, content]

/-- Appending to a file that was just created is appending. -/
theorem append_create : (d.create 0).append 0 bytes = d.append 0 bytes := by
  rw [append, content_create, create, Function.update_idem, append]

/-- Renaming a file leaves nothing under its old name. -/
@[simp] theorem rename_old (old new : ℕ) : d.rename old new old = none := by
  rw [rename, Function.update_self]

/-- The new name holds what the old one held. -/
theorem rename_new {old new : ℕ} (h : new ≠ old) : d.rename old new new = d old := by
  rw [rename, Function.update_of_ne h, Function.update_self]

/-- Renaming touches the two names it is given and no other. -/
theorem rename_other {old new index : ℕ} (hold : index ≠ old) (hnew : index ≠ new) :
    d.rename old new index = d index := by
  rw [rename, Function.update_of_ne hold, Function.update_of_ne hnew]

end Files

namespace LogFile

/-- Where the next name is free, moving up is renaming: a file that is missing leaves nothing. -/
theorem moveUp_eq {d : Files} {index : ℕ} (h : d (index + 1) = none) :
    moveUp d index = d.rename index (index + 1) := by
  unfold moveUp
  split
  case isTrue => rfl
  case isFalse hmissing =>
    have hnone : d index = none := Option.not_isSome_iff_eq_none.mp hmissing
    rw [Files.rename, hnone, ← h, Function.update_eq_self, h, ← hnone, Function.update_eq_self]

/-- **A rotation is the shift**, whichever of the files exist. -/
theorem disk_rotate (log : LogFile) : log.rotate.disk = log.disk.shift := by
  have hthree : (log.disk.remove 3) 3 = none := Function.update_self ..
  have htwo : moveUp (log.disk.remove 3) 2 = (log.disk.remove 3).rename 2 3 := moveUp_eq hthree
  have hone : moveUp ((log.disk.remove 3).rename 2 3) 1 =
      ((log.disk.remove 3).rename 2 3).rename 1 2 :=
    moveUp_eq ((log.disk.remove 3).rename_old 2 3)
  have hzero : moveUp (((log.disk.remove 3).rename 2 3).rename 1 2) 0 =
      (((log.disk.remove 3).rename 2 3).rename 1 2).rename 0 1 :=
    moveUp_eq (((log.disk.remove 3).rename 2 3).rename_old 1 2)
  have hchain : log.rotate.disk = (((log.disk.remove 3).rename 2 3).rename 1 2).rename 0 1 := by
    rw [← hzero, ← hone, ← htwo]
    rfl
  rw [hchain]
  funext index
  -- each name is written by at most one of the three renames
  match index with
  | 0 => rw [Files.rename_old]; rfl
  | 1 =>
      rw [Files.rename_new _ (by decide), Files.rename_other _ (by decide) (by decide),
        Files.rename_other _ (by decide) (by decide), Files.remove, Function.update_of_ne (by decide)]
      rfl
  | 2 =>
      rw [Files.rename_other _ (by decide) (by decide), Files.rename_new _ (by decide),
        Files.rename_other _ (by decide) (by decide), Files.remove, Function.update_of_ne (by decide)]
      rfl
  | 3 =>
      rw [Files.rename_other _ (by decide) (by decide),
        Files.rename_other _ (by decide) (by decide), Files.rename_new _ (by decide), Files.remove,
        Function.update_of_ne (by decide)]
      rfl
  | n + 4 =>
      rw [Files.rename_other _ (by omega) (by omega), Files.rename_other _ (by omega) (by omega),
        Files.rename_other _ (by omega) (by omega), Files.remove, Function.update_of_ne (by omega)]
      rfl

/-! ## One turn of the write loop -/

/-- What holds of a log between two turns: the counter is the length of the log, no file is over the
limit, there are at most four of them, and an open log exists. -/
structure Wf (log : LogFile) : Prop where
  counted : log.bytes = (log.disk.content 0).length
  bounded : ∀ index, (log.disk.content index).length ≤ log.limit
  four : ∀ index, 3 < index → log.disk index = none
  present : log.file = true → log.disk 0 ≠ none

/-- The files a turn appends to: shifted where the log is full. -/
def settled (log : LogFile) : Files :=
  if log.limit ≤ log.bytes then log.disk.shift else log.disk

/-- The log a turn appends to: rotated if it is full, and open. -/
def ready (log : LogFile) : LogFile :=
  (if log.limit ≤ log.bytes then log.rotate else log).reopen

variable {log log' : LogFile} {remaining rest chunk : Bytes}

/-- A rotation keeps what holds between two turns: the log is empty after it, and its counter is
zero. -/
theorem Wf.rotate (h : log.Wf) : log.rotate.Wf where
  counted := by rw [disk_rotate, Files.content_shift_zero]; rfl
  bounded := by
    intro index
    rw [disk_rotate]
    show _ ≤ log.limit
    match index with
    | 0 => exact Nat.zero_le _
    | k + 1 =>
        rcases Nat.lt_or_ge k 3 with hk | hk
        · rw [Files.content_shift_succ _ hk]
          exact h.bounded k
        · rw [Files.content, Files.shift_beyond _ (by omega)]
          exact h.bounded (k + 1)
  four := by
    intro index hindex
    rw [disk_rotate, Files.shift_beyond _ hindex]
    exact h.four index hindex
  present := fun hopen => absurd hopen Bool.false_ne_true

/-- Opening the log keeps what holds between two turns. -/
theorem Wf.reopen (h : log.Wf) : log.reopen.Wf := by
  unfold LogFile.reopen
  split
  case isTrue => exact h
  case isFalse =>
    refine ⟨?_, ?_, ?_, ?_⟩
    · show log.bytes = ((log.disk.create 0).content 0).length
      rw [Files.content_create]
      exact h.counted
    · intro index
      show ((log.disk.create 0).content index).length ≤ log.limit
      rw [Files.content_create]
      exact h.bounded index
    · intro index hindex
      show (log.disk.create 0) index = none
      rw [Files.create, Function.update_of_ne (by omega)]
      exact h.four index hindex
    · intro _
      show (log.disk.create 0) 0 ≠ none
      rw [Files.create, Function.update_self]
      exact Option.some_ne_none _

/-- A log that is ready to be written to is well formed. -/
theorem Wf.ready (h : log.Wf) : log.ready.Wf := by
  unfold LogFile.ready
  split
  case isTrue => exact h.rotate.reopen
  case isFalse => exact h.reopen

/-- Reopening keeps the limit. -/
@[simp] theorem limit_reopen : log.reopen.limit = log.limit := by
  unfold reopen
  split <;> rfl

/-- Reopening does not change how much has been counted. -/
@[simp] theorem bytes_reopen : log.reopen.bytes = log.bytes := by
  unfold reopen
  split <;> rfl

/-- Getting ready keeps the limit. -/
@[simp] theorem limit_ready : log.ready.limit = log.limit := by
  unfold ready
  split
  case isTrue => exact limit_reopen
  case isFalse => exact limit_reopen

/-- Opening the log does not show in what is appended to it. -/
theorem append_reopen (bytes : Bytes) :
    log.reopen.disk.append 0 bytes = log.disk.append 0 bytes := by
  unfold reopen
  split
  case isTrue => rfl
  case isFalse => exact Files.append_create ..

/-- What a turn appends to are the settled files, whether or not it rotated. -/
theorem append_ready (bytes : Bytes) :
    log.ready.disk.append 0 bytes = log.settled.append 0 bytes := by
  unfold ready settled
  split
  case isTrue => rw [append_reopen, disk_rotate]
  case isFalse => rw [append_reopen]

/-- Under a limit that is not zero there is room in the log a turn appends to. -/
theorem bytes_ready_lt (hlimit : 0 < log.limit) : log.ready.bytes < log.limit := by
  unfold ready
  split
  case isTrue =>
    rw [bytes_reopen]
    exact hlimit
  case isFalse hroom =>
    rw [bytes_reopen]
    omega

/-- One turn, by the log it appends to: it fails if that is over the limit, and else appends as much
of what remains as there is room for. -/
theorem pass_eq (log : LogFile) (remaining : Bytes) :
    log.pass remaining =
      if log.ready.limit < log.ready.bytes then none
      else
        let size := min remaining.length (log.ready.limit - log.ready.bytes)
        some ({ log.ready with disk := log.ready.disk.append 0 (remaining.take size),
                               bytes := log.ready.bytes + size }, remaining.drop size) := rfl

/-- **One turn**: some of the input, and not none of it, is appended to the settled files; nothing
underflows, and what holds between two turns is kept. -/
theorem pass_spec (h : log.Wf) (hlimit : 0 < log.limit) (hne : remaining ≠ []) :
    ∃ chunk rest log', log.pass remaining = some (log', rest) ∧ remaining = chunk ++ rest ∧
      chunk ≠ [] ∧ log'.Wf ∧ log'.limit = log.limit ∧ log'.disk = log.settled.append 0 chunk := by
  have hlt := bytes_ready_lt hlimit
  have hwf := h.ready
  have hlen := List.length_pos_of_ne_nil hne
  -- the turn writes what fits into the file, which is something
  set size := min remaining.length (log.limit - log.ready.bytes) with hsize
  have htake : (remaining.take size).length = size := by
    rw [List.length_take]
    omega
  refine ⟨remaining.take size, remaining.drop size,
    { log.ready with disk := log.ready.disk.append 0 (remaining.take size),
                     bytes := log.ready.bytes + size }, ?_, ?_, ?_, ?_, limit_ready, ?_⟩
  · have hno : ¬ log.ready.limit < log.ready.bytes := by
      rw [limit_ready]
      omega
    rw [pass_eq, if_neg hno, limit_ready]
  · exact (List.take_append_drop size remaining).symm
  · exact List.ne_nil_of_length_pos (by omega)
  · refine ⟨?_, ?_, ?_, ?_⟩
    · show log.ready.bytes + size = ((log.ready.disk.append 0 _).content 0).length
      rw [Files.content_append_zero, List.length_append, htake, hwf.counted]
    · intro index
      show ((log.ready.disk.append 0 _).content index).length ≤ log.ready.limit
      rcases eq_or_ne index 0 with rfl | hindex
      -- it was less than the limit before, and the chunk is what was missing at most
      · rw [Files.content_append_zero, List.length_append, htake, ← hwf.counted, limit_ready]
        omega
      · rw [Files.content_append_ne _ _ hindex]
        exact hwf.bounded index
    · intro index hindex
      show (log.ready.disk.append 0 _) index = none
      rw [Files.append, Function.update_of_ne (by omega)]
      exact hwf.four index hindex
    · intro _
      show (log.ready.disk.append 0 _) 0 ≠ none
      rw [Files.append, Function.update_self]
      exact Option.some_ne_none _
  · exact append_ready _

/-- **The write loop ends with its input written**, and keeps what every turn keeps: `R` relates the
bytes written so far to the files. -/
theorem writeLoop_rule {R : Bytes → Files → Prop} {limit : ℕ} (hlimit : 0 < limit)
    (hturn : ∀ (log : LogFile) (written chunk : Bytes), log.Wf → log.limit = limit → chunk ≠ [] →
      R written log.disk → R (written ++ chunk) (log.settled.append 0 chunk))
    {turns : ℕ} {bytes written : Bytes} {log : LogFile} (hturns : bytes.length ≤ turns)
    (hwf : log.Wf) (heq : log.limit = limit) (hR : R written log.disk) :
    ∃ log', writeLoop turns log bytes = some log' ∧ log'.Wf ∧ log'.limit = limit ∧
      R (written ++ bytes) log'.disk := by
  -- induction on the turns: each takes at least one byte
  induction turns generalizing log bytes written with
  | zero =>
      obtain rfl := List.eq_nil_of_length_eq_zero (Nat.le_zero.mp hturns)
      exact ⟨log, rfl, hwf, heq, by rwa [List.append_nil]⟩
  | succ turns ih =>
      cases bytes with
      | nil => exact ⟨log, rfl, hwf, heq, by rwa [List.append_nil]⟩
      | cons b bytes =>
          obtain ⟨chunk, rest, log', hpass, hsplit, hchunk, hwf', heq', hdisk⟩ :=
            pass_spec hwf (heq ▸ hlimit) (List.cons_ne_nil b bytes)
          have hR' : R (written ++ chunk) log'.disk := by
            rw [hdisk]
            -- one turn keeps what is to be kept
            exact hturn log written chunk hwf heq hchunk hR
          have hpos := List.length_pos_of_ne_nil hchunk
          have hlength := congrArg List.length hsplit
          rw [List.length_append] at hlength
          have hrest : rest.length ≤ turns := by
            rw [List.length_cons] at hlength hturns
            omega
          obtain ⟨log'', hloop, hwf'', heq'', hR''⟩ := ih hrest hwf' (heq'.trans heq) hR'
          refine ⟨log'', ?_, hwf'', heq'', ?_⟩
          · rw [writeLoop, hpass, Option.bind_some]
            exact hloop
          · rwa [hsplit, ← List.append_assoc]

end LogFile

/-! ## Opening -/

/-- The last `n` bytes, or all of them if there are no more. -/
def lastBytes (n : ℕ) (bytes : Bytes) : Bytes := bytes.drop (bytes.length - n)

/-- Trimming keeps the last bytes of one file, as many as the limit allows, and touches no other
file. -/
theorem trimExisting_eq (limit : ℕ) (d : Files) (index : ℕ) :
    trimExisting limit d index = Function.update d index ((d index).map (lastBytes limit)) := by
  unfold trimExisting
  split
  case h_1 hnone => rw [hnone, Option.map_none, ← hnone, Function.update_eq_self]
  case h_2 bytes hsome =>
    rw [hsome, Option.map_some]
    split
    case isTrue hover =>
      have hlength : (bytes.drop (bytes.length - limit)).length = limit := by
        rw [List.length_drop]
        omega
      have htail : (bytes.drop (bytes.length - limit) ++
          bytes.drop (bytes.drop (bytes.length - limit)).length).take limit =
          bytes.drop (bytes.length - limit) := List.take_left' hlength
      simp only [htail, lastBytes]
    case isFalse hfits =>
      have hzero : bytes.length - limit = 0 := by omega
      rw [lastBytes, hzero, List.drop_zero, ← hsome, Function.update_eq_self]

/-- The files once the first `n` names were trimmed. -/
theorem foldl_trimExisting (limit : ℕ) (d : Files) (n index : ℕ) :
    (List.range n).foldl (trimExisting limit) d index =
      if index < n then (d index).map (lastBytes limit) else d index := by
  induction n generalizing index with
  | zero => rfl
  | succ n ih =>
      rw [List.range_succ, List.foldl_append, List.foldl_cons, List.foldl_nil, trimExisting_eq]
      rcases eq_or_ne index n with rfl | h
      · rw [Function.update_self, ih, if_neg (Nat.lt_irrefl _), if_pos (Nat.lt_succ_self _)]
      · rw [Function.update_of_ne h, ih]
        exact if_congr (by omega) rfl rfl

/-- Of a text that is short enough all of it is kept. -/
theorem lastBytes_of_le {n : ℕ} {bytes : Bytes} (h : bytes.length ≤ n) :
    lastBytes n bytes = bytes := by
  have hzero : bytes.length - n = 0 := by omega
  rw [lastBytes, hzero, List.drop_zero]

/-- What is kept is as long as it may be, or as long as there is. -/
theorem length_lastBytes (n : ℕ) (bytes : Bytes) :
    (lastBytes n bytes).length = min n bytes.length := by
  rw [lastBytes, List.length_drop]
  omega

/-- A suffix is the last bytes, as many as it has. -/
theorem lastBytes_of_suffix {bytes whole : Bytes} (h : bytes <:+ whole) :
    lastBytes bytes.length whole = bytes := by
  obtain ⟨before, rfl⟩ := h
  have hlength : (before ++ bytes).length - bytes.length = before.length := by
    rw [List.length_append]
    omega
  rw [lastBytes, hlength, List.drop_left]

/-- What can be read after an open: the last bytes of the four files, the rest as it was. -/
theorem content_withLimit (limit : ℕ) (d : Files) (index : ℕ) :
    (withLimit limit d).disk.content index =
      if index ≤ 3 then lastBytes limit (d.content index) else d.content index := by
  have hfold := foldl_trimExisting limit d (BACKUPS + 1) index
  have hcount : index < BACKUPS + 1 ↔ index ≤ 3 := Nat.lt_succ_iff
  show (Files.create _ 0).content index = _
  rw [Files.content_create, Files.content, hfold, if_congr hcount rfl rfl]
  split
  case isTrue =>
    rw [Files.content]
    cases d index with
    | none => exact List.drop_nil.symm
    | some bytes => rfl
  case isFalse => rfl

/-- **An opened log is within its limit**, whatever was there before. -/
theorem wf_withLimit (limit : ℕ) {d : Files} (h : ∀ index, 3 < index → d index = none) :
    (withLimit limit d).Wf where
  counted := rfl
  bounded := by
    intro index
    rw [content_withLimit]
    show _ ≤ limit
    split
    case isTrue =>
      rw [length_lastBytes]
      exact Nat.min_le_left ..
    case isFalse hbeyond =>
      rw [Files.content, h index (by omega)]
      exact Nat.zero_le _
  four := by
    intro index hindex
    have hfold := foldl_trimExisting limit d (BACKUPS + 1) index
    have hcount : ¬ index < BACKUPS + 1 := Nat.not_lt.mpr hindex
    show (Files.create _ 0) index = none
    rw [Files.create, Function.update_of_ne (by omega), hfold, if_neg hcount, h index hindex]
  present := by
    intro _
    show (Files.create _ 0) 0 ≠ none
    rw [Files.create, Function.update_self]
    exact Option.some_ne_none _

/-- Opening a log that is within its limit again changes nothing that can be read. -/
theorem content_withLimit_of_wf {log : LogFile} (h : log.Wf) (index : ℕ) :
    (withLimit log.limit log.disk).disk.content index = log.disk.content index := by
  rw [content_withLimit, lastBytes_of_le (h.bounded index), ite_self]

/-! ## The newest bytes -/

namespace Files

/-- The newest `k` backups and the log, oldest first. -/
def newest (d : Files) : ℕ → Bytes
  | 0 => d.content 0
  | k + 1 => d.content (k + 1) ++ d.newest k

/-- Backups 3, 2, 1 and the log, oldest first: everything that can still be read. -/
def concat (d : Files) : Bytes := d.newest 3

variable {d d' : Files}

/-- What the newest files say depends only on what can be read: an empty file and none are the
same. -/
theorem newest_congr (h : ∀ index, d.content index = d'.content index) (k : ℕ) :
    d.newest k = d'.newest k := by
  induction k with
  | zero => exact h 0
  | succ k ih => rw [newest, newest, h, ih]

/-- Appending to the log appends to the newest bytes. -/
theorem newest_append (d : Files) (bytes : Bytes) (k : ℕ) :
    (d.append 0 bytes).newest k = d.newest k ++ bytes := by
  induction k with
  | zero => exact content_append_zero ..
  | succ k ih => rw [newest, newest, ih, content_append_ne _ _ k.succ_ne_zero, List.append_assoc]

/-- After a shift the same bytes are one name further. -/
theorem newest_shift (d : Files) {k : ℕ} (h : k < 3) : d.shift.newest (k + 1) = d.newest k := by
  induction k with
  | zero =>
      show d.shift.content 1 ++ d.shift.content 0 = d.content 0
      rw [content_shift_zero, List.append_nil, content_shift_succ _ h]
  | succ k ih =>
      show d.shift.content (k + 2) ++ d.shift.newest (k + 1) = d.content (k + 1) ++ d.newest k
      rw [ih (by omega), content_shift_succ _ h]

/-- Fewer backups with the log are a suffix of more of them. -/
theorem newest_suffix (d : Files) (k : ℕ) : d.newest k <:+ d.newest (k + 1) :=
  List.suffix_append ..

/-- **A turn drops bytes at the old end only.** -/
theorem concat_settled (log : LogFile) : log.settled.concat <:+ log.disk.concat := by
  unfold LogFile.settled
  split
  case isTrue =>
    rw [concat, newest_shift _ (by omega)]
    exact newest_suffix ..
  case isFalse => exact List.suffix_refl _

/-- `d` holds the end of the stream `s`, which began in the log of `opened`: after `q` rotations the
newest `q` backups are full of it and the older ones are those that `opened` had. -/
structure Holds (limit : ℕ) (opened : Files) (s : Bytes) (d : Files) (q : ℕ) : Prop where
  length : s.length = q * limit + (d.content 0).length
  full : ∀ k, 1 ≤ k → k ≤ 3 → k ≤ q → (d.content k).length = limit
  older : ∀ k, k ≤ 3 → q < k → d.content k = opened.content (k - q)
  suffix : d.newest (min q 3) <:+ s

namespace Holds

variable {limit q : ℕ} {opened : Files} {s chunk : Bytes}

/-- Right after an open the stream is what the log holds. -/
theorem start (limit : ℕ) (d : Files) : Holds limit d (d.content 0) d 0 where
  length := by rw [Nat.zero_mul, Nat.zero_add]
  full := fun k hk _ hq => absurd hq (by omega)
  older := fun _ _ _ => rfl
  suffix := List.suffix_refl _

/-- More bytes at the end of the log are more bytes of the stream. -/
theorem append (h : Holds limit opened s d q) (chunk : Bytes) :
    Holds limit opened (s ++ chunk) (d.append 0 chunk) q where
  length := by
    rw [List.length_append, content_append_zero, List.length_append, h.length]
    omega
  full := by
    intro k hk hthree hq
    rw [content_append_ne _ _ (by omega)]
    exact h.full k hk hthree hq
  older := by
    intro k hthree hq
    rw [content_append_ne _ _ (by omega)]
    exact h.older k hthree hq
  suffix := by
    obtain ⟨before, hbefore⟩ := h.suffix
    rw [newest_append]
    exact ⟨before, by rw [← List.append_assoc, hbefore]⟩

/-- A full log becomes one more backup full of the stream. -/
theorem shift (h : Holds limit opened s d q) (hfull : (d.content 0).length = limit) :
    Holds limit opened s d.shift (q + 1) where
  length := by
    rw [content_shift_zero, List.length_nil, h.length, hfull, Nat.succ_mul, Nat.add_zero]
  full := by
    intro k hk hthree hq
    obtain ⟨j, rfl⟩ : ∃ j, k = j + 1 := ⟨k - 1, by omega⟩
    rw [content_shift_succ _ (by omega)]
    rcases Nat.eq_zero_or_pos j with rfl | hj
    · exact hfull
    · exact h.full j hj (by omega) (by omega)
  older := by
    intro k hthree hq
    obtain ⟨j, rfl⟩ : ∃ j, k = j + 1 := ⟨k - 1, by omega⟩
    rw [content_shift_succ _ (by omega), h.older j (by omega) (by omega), Nat.add_sub_add_right]
  suffix := by
    rcases Nat.lt_or_ge q 3 with hq | hq
    · have hmin : min (q + 1) 3 = q + 1 := by omega
      have hsuffix := h.suffix
      rw [Nat.min_eq_left (by omega)] at hsuffix
      rwa [hmin, newest_shift _ hq]
    · -- the oldest backup was full of the stream already, and goes
      have hsuffix := h.suffix
      rw [Nat.min_eq_right hq] at hsuffix
      rw [Nat.min_eq_right (by omega), newest_shift _ (by omega)]
      exact (newest_suffix d 2).trans hsuffix

/-- A turn of the write loop: the files that held the end of the stream hold the end of the stream
with the chunk behind it, after one rotation more or none. -/
theorem turn {log : LogFile} (h : Holds log.limit opened s log.disk q) (hwf : log.Wf)
    (chunk : Bytes) : ∃ q', Holds log.limit opened (s ++ chunk) (log.settled.append 0 chunk) q' := by
  unfold LogFile.settled
  split
  case isTrue hover =>
    have hbounded := hwf.bounded 0
    have hcounted := hwf.counted
    exact ⟨q + 1, (h.shift (by omega)).append chunk⟩
  case isFalse => exact ⟨q, h.append chunk⟩

/-- Files in which the same can be read hold the end of the same stream. -/
theorem congr {d' : Files} (h : Holds limit opened s d q)
    (hcontent : ∀ index, d.content index = d'.content index) : Holds limit opened s d' q where
  length := by rw [← hcontent, h.length]
  full := fun k hk hthree hq => by rw [← hcontent, h.full k hk hthree hq]
  older := fun k hthree hq => by rw [← hcontent, h.older k hthree hq]
  suffix := by
    rw [← newest_congr hcontent]
    exact h.suffix

/-- The newest backups that are full of the stream, with the log. -/
theorem length_newest (h : Holds limit opened s d q) {k : ℕ} (hq : k ≤ q) (hthree : k ≤ 3) :
    (d.newest k).length = k * limit + (d.content 0).length := by
  induction k with
  | zero => rw [newest, Nat.zero_mul, Nat.zero_add]
  | succ k ih =>
      rw [newest, List.length_append, ih (by omega) (by omega), h.full _ (by omega) hthree hq,
        Nat.succ_mul]
      omega

/-- **How much of the stream is left**: three full backups, if it filled so many, and what its last
bytes make of another file. -/
theorem newest_eq (h : Holds limit opened s d q)
    (hbounded : (d.content 0).length ≤ limit) (hbegun : d.content 0 = [] → s = []) :
    d.newest (min q 3) =
      lastBytes (min s.length (3 * limit + ((s.length - 1) % limit + 1))) s := by
  have hkept := lastBytes_of_suffix h.suffix
  have hlength := h.length
  rw [h.length_newest (Nat.min_le_left q 3) (Nat.min_le_right q 3)] at hkept
  rw [← hkept]
  rcases Nat.eq_zero_or_pos (d.content 0).length with hzero | hpos
  · -- nothing was written
    rw [hbegun (List.eq_nil_of_length_eq_zero hzero), lastBytes, List.drop_nil, lastBytes,
      List.drop_nil]
  · have hrem : (s.length - 1) % limit + 1 = (d.content 0).length := by
      have hpred : s.length - 1 = q * limit + ((d.content 0).length - 1) := by omega
      rw [hpred, Nat.mul_add_mod_of_lt (by omega)]
      omega
    rw [hrem, hlength]
    congr 1
    rcases Nat.le_total q 3 with hq | hq
    · have hmul : q * limit ≤ 3 * limit := Nat.mul_le_mul_right limit hq
      rw [Nat.min_eq_left hq]
      omega
    · have hmul : 3 * limit ≤ q * limit := Nat.mul_le_mul_right limit hq
      rw [Nat.min_eq_right hq]
      omega

/-- With nothing there when the stream began, all that can be read is of the stream. -/
theorem concat_eq (h : Holds limit (fun _ => none) s d q) : d.concat = d.newest (min q 3) := by
  have hnil : ∀ k, k ≤ 3 → q < k → d.content k = [] := fun k hthree hq => h.older k hthree hq
  have hgrow : ∀ k, min q 3 ≤ k → k ≤ 3 → d.newest k = d.newest (min q 3) := by
    intro k
    induction k with
    | zero => intro hmin _; rw [Nat.le_zero.mp hmin]
    | succ k ih =>
        intro hmin hthree
        rcases Nat.eq_or_lt_of_le hmin with heq | hlt
        · rw [heq]
        · rw [newest, hnil (k + 1) hthree (by omega), List.nil_append, ih (by omega) (by omega)]
  exact hgrow 3 (Nat.min_le_right q 3) (Nat.le_refl 3)

/-- The end of the stream is the end of what can be read. -/
theorem newest_suffix_concat (d : Files) (q : ℕ) : d.newest (min q 3) <:+ d.concat := by
  have hgrow : ∀ k, min q 3 ≤ k → d.newest (min q 3) <:+ d.newest k := by
    intro k hk
    induction k, hk using Nat.le_induction with
    | base => exact List.suffix_refl _
    | succ k hk ih => exact ih.trans (newest_suffix d k)
  exact hgrow 3 (Nat.min_le_right q 3)

end Holds

/-- The files hold the end of the stream after however many rotations, and a log with nothing in it
means that the stream is empty. -/
def Carries (limit : ℕ) (opened : Files) (s : Bytes) (d : Files) : Prop :=
  (∃ q, Holds limit opened s d q) ∧ (d.content 0 = [] → s = [])

/-- Right after an open the stream is what the log holds. -/
theorem carries_start (limit : ℕ) (d : Files) : Carries limit d (d.content 0) d :=
  ⟨⟨0, Holds.start limit d⟩, id⟩

namespace Carries

variable {limit : ℕ} {opened d' : Files} {s chunk : Bytes} {log : LogFile}

/-- Files in which the same can be read carry the end of the same stream. -/
theorem congr (h : Carries limit opened s d)
    (hcontent : ∀ index, d.content index = d'.content index) : Carries limit opened s d' := by
  obtain ⟨⟨q, hq⟩, hbegun⟩ := h
  refine ⟨⟨q, hq.congr hcontent⟩, fun hempty => hbegun ?_⟩
  rwa [hcontent]

/-- A turn of the write loop carries the stream on. -/
theorem turn (h : Carries log.limit opened s log.disk) (hwf : log.Wf) (hchunk : chunk ≠ []) :
    Carries log.limit opened (s ++ chunk) (log.settled.append 0 chunk) := by
  obtain ⟨⟨q, hq⟩, -⟩ := h
  refine ⟨hq.turn hwf chunk, fun hempty => ?_⟩
  rw [content_append_zero] at hempty
  exact absurd (List.append_eq_nil_iff.mp hempty).2 hchunk

end Carries

/-- A turn of the write loop drops bytes at the old end only. -/
theorem suffix_turn {log : LogFile} {s : Bytes} (h : log.disk.concat <:+ s) (chunk : Bytes) :
    (log.settled.append 0 chunk).concat <:+ s ++ chunk := by
  obtain ⟨before, hbefore⟩ := (concat_settled log).trans h
  refine ⟨before, ?_⟩
  rw [concat, newest_append, ← List.append_assoc, ← concat, hbefore]

end Files

/-! ## Runs -/

/-- What is done with a log: a write, or another open of its files, as when the daemon starts
again. -/
inductive LogOp where
  | write (bytes : Bytes)
  | reopen
  deriving DecidableEq, Repr

/-- A log in use, with what its files held right after the last open, what was written since, and
what was written since the first open. -/
structure Usage where
  log : LogFile
  opened : Files
  since : Bytes
  total : Bytes

namespace Usage

/-- The first open of the files, after which nothing has been written. -/
def start (limit : ℕ) (d : Files) : Usage :=
  let log := withLimit limit d
  ⟨log, log.disk, [], []⟩

/-- A write, or another open of the same files. -/
def step (u : Usage) : LogOp → Option Usage
  | .write bytes =>
      (u.log.write bytes).map fun (log, _) => ⟨log, u.opened, u.since ++ bytes, u.total ++ bytes⟩
  | .reopen =>
      let log := withLimit u.log.limit u.log.disk
      some ⟨log, log.disk, [], u.total⟩

/-- One operation after another; `none` where one of them fails. -/
def run (u : Usage) : List LogOp → Option Usage
  | [] => some u
  | op :: ops => (u.step op).bind fun u => run u ops

/-- What holds between two operations on a log whose files were `d` before the first open. -/
structure Kept (limit : ℕ) (d : Files) (u : Usage) : Prop where
  wf : u.log.Wf
  limit_eq : u.log.limit = limit
  suffix : u.log.disk.concat <:+ u.opened.concat ++ u.since
  stream : Files.Carries limit u.opened (u.opened.content 0 ++ u.since) u.log.disk
  fresh : (∀ index, d index = none) → Files.Carries limit (fun _ => none) u.total u.log.disk

variable {limit : ℕ} {d : Files} {u : Usage}

/-- It holds of a log that has just been opened, whatever the four files were. -/
theorem kept_start (limit : ℕ) {d : Files} (h : ∀ index, 3 < index → d index = none) :
    Kept limit d (start limit d) where
  wf := wf_withLimit limit h
  limit_eq := rfl
  suffix := by
    show _ <:+ (withLimit limit d).disk.concat ++ []
    rw [List.append_nil]
    exact List.suffix_refl _
  stream := by
    show Files.Carries limit _ (Files.content _ 0 ++ []) _
    rw [List.append_nil]
    exact Files.carries_start ..
  fresh := by
    intro hnone
    refine (Files.carries_start limit fun _ => none).congr fun index => ?_
    show [] = (withLimit limit d).disk.content index
    rw [content_withLimit, Files.content, hnone index, Option.getD_none, lastBytes, List.drop_nil,
      ite_self]

/-- A write ends, and keeps what holds between two operations. -/
theorem Kept.write (h : Kept limit d u) (hlimit : 0 < limit) (bytes : Bytes) :
    ∃ u', u.step (.write bytes) = some u' ∧ Kept limit d u' := by
  let R : Bytes → Files → Prop := fun written disk =>
    disk.concat <:+ u.opened.concat ++ u.since ++ written ∧
      Files.Carries limit u.opened (u.opened.content 0 ++ u.since ++ written) disk ∧
      ((∀ index, d index = none) → Files.Carries limit (fun _ => none) (u.total ++ written) disk)
  have hturn : ∀ (log : LogFile) (written chunk : Bytes), log.Wf → log.limit = limit → chunk ≠ [] →
      R written log.disk → R (written ++ chunk) (log.settled.append 0 chunk) := by
    rintro log written chunk hwf rfl hchunk ⟨hsuffix, hstream, hfresh⟩
    show _ <:+ _ ∧ _ ∧ _
    simp only [← List.append_assoc]
    exact ⟨Files.suffix_turn hsuffix chunk, hstream.turn hwf hchunk,
      fun hnone => (hfresh hnone).turn hwf hchunk⟩
  have hR : R [] u.log.disk := by
    show _ <:+ _ ++ [] ∧ Files.Carries _ _ (_ ++ []) _ ∧ (_ → Files.Carries _ _ (_ ++ []) _)
    simp only [List.append_nil]
    exact ⟨h.suffix, h.stream, h.fresh⟩
  obtain ⟨log, hloop, hwf, heq, hsuffix, hstream, hfresh⟩ :=
    LogFile.writeLoop_rule hlimit hturn (Nat.le_refl bytes.length) h.wf h.limit_eq hR
  refine ⟨⟨log, u.opened, u.since ++ bytes, u.total ++ bytes⟩, ?_, hwf, heq, ?_, ?_, hfresh⟩
  · rw [step, LogFile.write, hloop]
    rfl
  · show _ <:+ _ ++ (_ ++ bytes)
    rwa [← List.append_assoc]
  · show Files.Carries _ _ (_ ++ (_ ++ bytes)) _
    rwa [← List.append_assoc]

/-- Another open finds what the last operation has left, trims nothing and keeps what holds between
two operations. -/
theorem Kept.reopen (h : Kept limit d u) :
    ∃ u', u.step .reopen = some u' ∧ Kept limit d u' := by
  have hcontent := content_withLimit_of_wf h.wf
  refine ⟨_, rfl, wf_withLimit _ h.wf.four, h.limit_eq, ?_, ?_, ?_⟩
  · show _ <:+ Files.concat _ ++ []
    exact (List.append_nil (Files.concat _)).symm ▸ List.suffix_refl _
  · show Files.Carries limit _ (Files.content _ 0 ++ []) _
    rw [List.append_nil]
    exact Files.carries_start ..
  · intro hnone
    exact (h.fresh hnone).congr fun index => (hcontent index).symm

/-- Every sequence of operations runs through, and keeps what holds between two of them. -/
theorem Kept.run (h : Kept limit d u) (hlimit : 0 < limit) (ops : List LogOp) :
    ∃ u', u.run ops = some u' ∧ Kept limit d u' := by
  induction ops generalizing u with
  | nil => exact ⟨u, rfl, h⟩
  | cons op ops ih =>
      have hstep : ∃ u', u.step op = some u' ∧ Kept limit d u' := by
        cases op with
        | write bytes => exact h.write hlimit bytes
        | reopen => exact h.reopen
      obtain ⟨u₁, hu₁, hkept⟩ := hstep
      obtain ⟨u₂, hu₂, hkept₂⟩ := ih hkept
      refine ⟨u₂, ?_, hkept₂⟩
      rw [Usage.run, hu₁, Option.bind_some]
      exact hu₂

/-- **The log is a bounded suffix of what was written.** Every sequence of writes and opens runs
through: the room left never underflows and every write ends. Then there are at most the four files,
none over the limit; together they are a suffix of what they were after the last open followed by
what was written since; they end in three full files and the last piece of that stream, or in all
of it; and where there were no files at first they are exactly that much of all that was written. -/
theorem bounded_suffix (limit : ℕ) (hlimit : 0 < limit) (d : Files)
    (hd : ∀ index, 3 < index → d index = none) (ops : List LogOp) :
    ∃ u, (start limit d).run ops = some u ∧
      (∀ index bytes, u.log.disk index = some bytes → index ≤ 3 ∧ bytes.length ≤ limit) ∧
      u.log.disk.concat <:+ u.opened.concat ++ u.since ∧
      (let s := u.opened.content 0 ++ u.since
       lastBytes (min s.length (3 * limit + ((s.length - 1) % limit + 1))) s <:+ u.log.disk.concat) ∧
      ((∀ index, d index = none) →
        let n := u.total.length
        u.log.disk.concat = lastBytes (min n (3 * limit + ((n - 1) % limit + 1))) u.total) := by
  obtain ⟨u, hrun, hkept⟩ := (kept_start limit hd).run hlimit ops
  have hbounded : (u.log.disk.content 0).length ≤ limit := hkept.limit_eq ▸ hkept.wf.bounded 0
  refine ⟨u, hrun, ?_, hkept.suffix, ?_, ?_⟩
  · intro index bytes hsome
    have hlength := hkept.wf.bounded index
    rw [Files.content, hsome, hkept.limit_eq] at hlength
    refine ⟨Nat.le_of_not_lt fun hbeyond => ?_, hlength⟩
    rw [hkept.wf.four index hbeyond] at hsome
    exact Option.some_ne_none _ hsome.symm
  · obtain ⟨⟨q, hq⟩, hbegun⟩ := hkept.stream
    show lastBytes _ _ <:+ _
    rw [← hq.newest_eq hbounded hbegun]
    exact Files.Holds.newest_suffix_concat u.log.disk q
  · intro hnone
    obtain ⟨⟨q, hq⟩, hbegun⟩ := hkept.fresh hnone
    show _ = lastBytes _ _
    rw [hq.concat_eq, hq.newest_eq hbounded hbegun]

/-- A limit of two, three backups over it, a write of five bytes, and another open. -/
theorem bounded_suffix_two :
    let d : Files := fun index => if index ≤ 3 then some [1, 2, 3] else none
    ∃ u, (start 2 d).run [.write [4, 5, 6, 7, 8], .reopen] = some u ∧
      u.log.disk.concat <:+ u.opened.concat ++ u.since := by
  intro d
  obtain ⟨u, hrun, -, hsuffix, -⟩ := bounded_suffix 2 (by decide) d
    (fun index h => if_neg (by omega)) [.write [4, 5, 6, 7, 8], .reopen]
  exact ⟨u, hrun, hsuffix⟩

end Usage

end RotatingLog

end Synbad
