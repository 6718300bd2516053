import Synbad.Ipc.LogParse
import Synbad.Ipc.Server
import Synbad.Lib.LineReader
import Synbad.Lib.Utf8
import Mathlib.Data.List.DropRight

/-! # Reading the Core's output

`spawn_log_reader` reads one pipe of the Core and makes lines of it: at most 16 KiB of a line are
kept, what is longer is marked, and bytes that are not UTF-8 are replaced. The newline is counted with
the line it ends. The task ends with the pipe; the receiver of the lines outlives it.

The loop takes what has arrived chunk by chunk, up to and with the first newline, and `readLog_spec`
says what it makes of the chunks to come: the lines of the pieces of the stream, the first of them
completed by what it has kept so far. So the result does not depend on how the stream is delivered
(`spawnLogReader_of`), and the memory is bounded whatever the lines are.

`plainLine` is what a line is meant to come out as: its first 16 KiB, marked if it is longer. The loop
does that except for one length. `splitsLines_iff` says that the reader splits a stream as it is meant
to exactly if no line that a newline ends has exactly 16 KiB, for there the newline no longer fits and
the line is marked as if some of it were missing. -/

namespace Synbad

namespace CoreLog

open LineReader

/-! ## The source -/

/-- `CoreLogLine`: a line and the child it is of; its text is kept as characters. -/
structure CoreLogLine where
  pid : ℕ
  line : List Char
  deriving DecidableEq

/-- `16 * 1024`, the most that is kept of a line. -/
def keptBytes : ℕ := 16 * 1024

/-- `str::trim_end`: the text without the white space at its end. -/
def trimEnd (s : List Char) : List Char := s.rdropWhile LogParse.isWhitespace

/-- The mark of a line that was cut, behind what is kept of it. -/
def truncatedMark : List Char := " [truncated]".toList

/-- The line that is made of the bytes kept. -/
def lineOf (bytes : Bytes) (truncated : Bool) : List Char :=
  trimEnd (Utf8.lossy bytes) ++ if truncated then truncatedMark else []

/-- What the task does with its lines: it sends them, and writes them to the log on disk. -/
structure Output where
  sent : List CoreLogLine
  disk : List (List Char)
  /-- The number of bytes kept after each round, for the bound on it. -/
  retained : List ℕ

/-- `[core {pid}] {line}` and a newline, as the log on disk has it. -/
def diskLine (pid : ℕ) (line : List Char) : List Char :=
  "[core ".toList ++ (toString pid).toList ++ "] ".toList ++ line ++ ['\n']

/-- The loop of `spawn_log_reader`, one round for each chunk at hand. -/
def readLog (pid : ℕ) (chunks : List Bytes) (bytes : Bytes) (truncated : Bool) : Output :=
  let chunk := fillBuf chunks
  let ended := position Ipc.newline chunk
  let n := taken Ipc.newline chunk
  let keep := min n (keptBytes - bytes.length)
  let bytes' := bytes ++ chunk.take keep
  let truncated' := truncated || decide (keep < n)
  if _hchunk : chunk = [] then
    -- the end of the pipe
    if bytes'.isEmpty then ⟨[], [], [bytes'.length]⟩
    else
      let line := lineOf bytes' truncated'
      ⟨[⟨pid, line⟩], [diskLine pid line], [bytes'.length]⟩
  else if ended.isSome then
    let line := lineOf bytes' truncated'
    let out := readLog pid (consume n chunks) [] false
    ⟨⟨pid, line⟩ :: out.sent, diskLine pid line :: out.disk, bytes'.length :: out.retained⟩
  else
    let out := readLog pid (consume n chunks) bytes' truncated'
    ⟨out.sent, out.disk, bytes'.length :: out.retained⟩
termination_by chunks.flatten.length
decreasing_by
  · exact length_consume_lt _hchunk
  · exact length_consume_lt _hchunk

/-- `spawn_log_reader`: the loop from the start of the pipe, with nothing kept yet. -/
def spawnLogReader (pid : ℕ) (chunks : List Bytes) : Output := readLog pid chunks [] false

/-! ## What a line becomes -/

/-- What becomes of one piece of the stream: its first 16 KiB, marked if the piece and the newline
that ended it are longer. -/
def pieceLine (piece : Bytes × Bool) : List Char :=
  lineOf (piece.1.take keptBytes)
    (decide (keptBytes < piece.1.length + if piece.2 then 1 else 0))

/-- The newline is white space, so a line is trimmed of the one it ends in. -/
theorem isWhitespace_newline : LogParse.isWhitespace (Char.ofNat Ipc.newline.toNat) = true := by
  decide

/-- A newline that was kept with the line is trimmed. -/
theorem trimEnd_newline (bytes : Bytes) :
    trimEnd (Utf8.lossy (bytes ++ [Ipc.newline])) = trimEnd (Utf8.lossy bytes) := by
  rw [Utf8.lossy_snoc (by decide), trimEnd, trimEnd,
    List.rdropWhile_concat_pos _ _ _ isWhitespace_newline]

/-- The line of what was kept of a piece with its newline. -/
theorem lineOf_ended (content : Bytes) :
    lineOf ((content ++ [Ipc.newline]).take keptBytes)
        (decide (keptBytes < (content ++ [Ipc.newline]).length)) = pieceLine (content, true) := by
  have hlen : (content ++ [Ipc.newline]).length = content.length + 1 := by
    rw [List.length_append, List.length_singleton]
  rw [hlen, pieceLine]
  dsimp only
  rcases Nat.lt_or_ge content.length keptBytes with hfits | hover
  · have hwhole : (content ++ [Ipc.newline]).take keptBytes = content ++ [Ipc.newline] :=
      List.take_of_length_le (by omega)
    have hcontent : content.take keptBytes = content := List.take_of_length_le (by omega)
    rw [hwhole, hcontent, lineOf, trimEnd_newline]
    rfl
  · rw [List.take_append_of_le_length hover]
    rfl

/-- Keeping the beginning of a chunk behind the beginning of a line. -/
theorem take_append_keep (p chunk : Bytes) (n : ℕ) :
    p.take keptBytes ++ chunk.take (min n (keptBytes - (p.take keptBytes).length)) =
      (p ++ chunk.take n).take keptBytes := by
  rw [List.take_append, List.take_take, List.length_take]
  congr 2
  omega

/-- Whether anything was left out so far can be told from the piece so far: it is longer than what is
kept. -/
theorem truncated_keep (p chunk : Bytes) {n : ℕ} (hn : n ≤ chunk.length) :
    (decide (keptBytes < p.length) ||
        decide (min n (keptBytes - (p.take keptBytes).length) < n)) =
      decide (keptBytes < (p ++ chunk.take n).length) := by
  rw [← Bool.decide_or, List.length_append, List.length_take, List.length_take]
  refine decide_eq_decide.mpr ?_
  omega

/-! ## The loop -/

/-- What is done with some lines: they are sent and written to disk in order, and no more than 16 KiB
are kept. -/
def Output.Of (out : Output) (pid : ℕ) (lines : List (List Char)) : Prop :=
  out.sent = lines.map (CoreLogLine.mk pid) ∧ out.disk = lines.map (diskLine pid) ∧
    ∀ n ∈ out.retained, n ≤ keptBytes

/-- **The loop makes lines of the pieces.** Behind the beginning `p` of a line, of which it has kept
what it keeps, it makes of the chunks to come the lines of all that is then there. -/
theorem readLog_spec (pid : ℕ) (p : Bytes) (hp : Ipc.newline ∉ p) (chunks : List Bytes)
    (hfull : AllFull chunks) :
    (readLog pid chunks (p.take keptBytes) (decide (keptBytes < p.length))).Of pid
      ((Lines.pieces Ipc.newline (p ++ chunks.flatten)).map pieceLine) := by
  generalize hsize : chunks.flatten.length = size
  induction size using Nat.strong_induction_on generalizing p chunks with
  | _ size ih =>
      have hbound : ∀ q : Bytes, (q.take keptBytes).length ≤ keptBytes :=
        fun q => List.length_take_le _ _
      have hn : taken Ipc.newline (fillBuf chunks) ≤ (fillBuf chunks).length := taken_le _
      rw [readLog]
      dsimp only
      -- the chunk's part of the line goes behind what is kept, and what is too long is cut off
      rw [take_append_keep, truncated_keep p (fillBuf chunks) hn]
      rcases eq_or_ne (fillBuf chunks) [] with hchunk | hchunk
      · -- the end: what is left of a line without its newline, unless nothing is
        have hnil := hfull.fillBuf_eq_nil.mp hchunk
        rw [dif_pos hchunk, hchunk, List.take_nil, List.append_nil, hnil, List.flatten_nil,
          List.append_nil, Lines.pieces_unended hp]
        cases p with
        | nil =>
            refine ⟨rfl, rfl, fun n hn => ?_⟩
            rw [List.mem_singleton.mp hn]
            exact Nat.zero_le _
        | cons b p =>
            have hsome : ((b :: p).take keptBytes).isEmpty = false := rfl
            rw [hsome]
            refine ⟨rfl, rfl, fun n hn => ?_⟩
            rw [List.mem_singleton.mp hn]
            exact hbound (b :: p)
      · rw [dif_neg hchunk]
        -- a piece is taken off the stream, which is what the induction is on
        have hless : (consume (taken Ipc.newline (fillBuf chunks)) chunks).flatten.length <
            chunks.flatten.length := length_consume_lt hchunk
        have hrest := hfull.consume (taken Ipc.newline (fillBuf chunks))
        rcases bite Ipc.newline chunks with
          ⟨hpos, hsep, -, htake, hflatten⟩ | ⟨l, hpos, hl, -, htake, hflatten⟩
        · -- the line goes on
          have hunended : Ipc.newline ∉ p ++ fillBuf chunks := List.not_mem_append hp hsep
          obtain ⟨hsent, hdisk, hretained⟩ :=
            ih _ (by omega) (p ++ fillBuf chunks) hunended _ hrest rfl
          rw [hpos, htake, hflatten, ← List.append_assoc]
          exact ⟨hsent, hdisk, List.forall_mem_cons.mpr ⟨hbound _, hretained⟩⟩
        · -- the line ends in this chunk, and the next one begins with nothing
          have hunended : Ipc.newline ∉ p ++ l := List.not_mem_append hp hl
          obtain ⟨hsent, hdisk, hretained⟩ := ih _ (by omega) [] List.not_mem_nil _ hrest rfl
          have hpieces : Lines.pieces Ipc.newline (p ++ chunks.flatten) =
              (p ++ l, true) :: Lines.pieces Ipc.newline
                (consume (taken Ipc.newline (fillBuf chunks)) chunks).flatten := by
            rw [hflatten, ← List.append_assoc, Lines.pieces_ended hunended]
          rw [hpos, htake, ← List.append_assoc, lineOf_ended, hpieces, List.map_cons]
          exact ⟨congrArg _ hsent, congrArg _ hdisk, List.forall_mem_cons.mpr ⟨hbound _, hretained⟩⟩

/-- **Whatever the chunks**, the task makes the lines of the pieces of the stream, and never keeps
more than 16 KiB. -/
theorem spawnLogReader_of (pid : ℕ) {chunks : List Bytes} (hfull : AllFull chunks) :
    (spawnLogReader pid chunks).Of pid
      ((Lines.pieces Ipc.newline chunks.flatten).map pieceLine) :=
  readLog_spec pid [] List.not_mem_nil chunks hfull

/-! ## Plain lines -/

/-- A line of the stream as it is meant to come out: its first 16 KiB, marked if it is longer. -/
def plainLine (content : Bytes) : List Char :=
  lineOf (content.take keptBytes) (decide (keptBytes < content.length))

/-- The lines of a stream come out as they are meant to, however it is delivered, and no more than
16 KiB are ever kept. -/
def SplitsLines (pid : ℕ) (stream : Bytes) : Prop :=
  ∀ chunks, AllFull chunks → chunks.flatten = stream →
    (spawnLogReader pid chunks).sent =
        (Lines.pieces Ipc.newline stream).map (fun piece => ⟨pid, plainLine piece.1⟩) ∧
      ∀ n ∈ (spawnLogReader pid chunks).retained, n ≤ keptBytes

/-- A line that is not exactly 16 KiB long comes out as it is meant to. -/
theorem pieceLine_eq {piece : Bytes × Bool} (h : piece.2 = true → piece.1.length ≠ keptBytes) :
    pieceLine piece = plainLine piece.1 := by
  obtain ⟨content, ended⟩ := piece
  rw [pieceLine, plainLine]
  dsimp only at h ⊢
  congr 1
  refine decide_eq_decide.mpr ?_
  cases ended with
  | false => exact Iff.rfl
  | true =>
      have hne := h rfl
      rw [if_pos rfl]
      omega

/-- A line of exactly 16 KiB that a newline ends is marked although nothing of it is missing. -/
theorem pieceLine_ne {content : Bytes} (h : content.length = keptBytes) :
    pieceLine (content, true) ≠ plainLine content := by
  have hmark : decide (keptBytes < content.length + 1) = true := decide_eq_true (by omega)
  have hplain : decide (keptBytes < content.length) = false := decide_eq_false (by omega)
  rw [pieceLine, plainLine]
  dsimp only
  rw [if_pos rfl, hmark, hplain, lineOf, lineOf, if_pos rfl, if_neg Bool.false_ne_true]
  intro heq
  have hlen := congrArg List.length heq
  rw [List.length_append, List.length_append] at hlen
  have hpos : 0 < truncatedMark.length := by decide
  rw [List.length_nil] at hlen
  omega

/-- Every stream can be delivered in chunks none of which is empty. -/
theorem exists_chunks (stream : Bytes) : ∃ chunks, AllFull chunks ∧ chunks.flatten = stream := by
  rcases eq_or_ne stream [] with rfl | hne
  · exact ⟨[], by decide, rfl⟩
  · refine ⟨[stream], fun c hc => ?_, List.flatten_singleton⟩
    rw [List.mem_singleton.mp hc]
    exact hne

/-- A line of exactly 16 KiB that a newline ends spoils the stream. -/
theorem not_splitsLines {pid : ℕ} {stream content : Bytes}
    (hmem : (content, true) ∈ Lines.pieces Ipc.newline stream)
    (hlen : content.length = keptBytes) : ¬ SplitsLines pid stream := by
  intro h
  obtain ⟨chunks, hfull, rfl⟩ := exists_chunks stream
  obtain ⟨hsent, -⟩ := h chunks hfull rfl
  rw [(spawnLogReader_of pid hfull).1, List.map_map] at hsent
  have heq := List.map_inj_left.mp hsent (content, true) hmem
  exact pieceLine_ne hlen (CoreLogLine.mk.inj heq).2

/-- **The reader splits lines exactly where no line that a newline ends has exactly 16 KiB**: there
the newline no longer fits, and the line is marked as if some of it were missing. -/
theorem splitsLines_iff (pid : ℕ) (stream : Bytes) :
    SplitsLines pid stream ↔
      ∀ content, (content, true) ∈ Lines.pieces Ipc.newline stream →
        content.length ≠ keptBytes := by
  constructor
  · intro h content hmem hlen
    exact not_splitsLines hmem hlen h
  · rintro h chunks hfull rfl
    obtain ⟨hsent, -, hretained⟩ := spawnLogReader_of pid hfull
    refine ⟨?_, hretained⟩
    rw [hsent, List.map_map]
    refine List.map_congr_left fun piece hpiece => ?_
    have heq : pieceLine piece = plainLine piece.1 := by
      refine pieceLine_eq fun hended => h piece.1 ?_
      rwa [← hended]
    exact congrArg (CoreLogLine.mk pid) heq

/-- A line of 16384 bytes and its newline, which is marked though nothing of it is missing. -/
theorem splitsLines_fails :
    ¬ SplitsLines 42 (List.replicate 16384 120 ++ [Ipc.newline]) := by
  have hno : Ipc.newline ∉ List.replicate 16384 (120 : UInt8) := by
    intro hmem
    exact absurd (List.eq_of_mem_replicate hmem) (by decide)
  have hmem : (List.replicate 16384 (120 : UInt8), true) ∈
      Lines.pieces Ipc.newline (List.replicate 16384 120 ++ [Ipc.newline]) := by
    rw [Lines.pieces_ended hno]
    exact List.mem_cons_self
  exact not_splitsLines hmem List.length_replicate

end CoreLog

end Synbad
