import Synbad.Crypto.Cipher
import Mathlib.Data.List.Induction

/-! # The frame codec

Reading frames back from a byte stream that arrives in arbitrary pieces, with reads abandoned and
resumed at any point and the stream split at any point. The key is what the four fields of a
`PendingFrame` mean: `consumed`, the bytes of the current frame read so far, so that `consumed`
followed by what is still in the socket never changes while a frame is being read.

A read can be left in two states, waiting for the rest of the header or of the body; `Reads` says what
it can do from one of them, over any arrivals (`read_reads`). Over a stream that begins with a frame
that is either waiting in the middle of it or handing out exactly its ciphertext (`read_frame`); a
header out of range is rejected in whatever pieces it comes (`read_bad_header`).

At the sending end a clean sender puts one frame on the wire for each payload (`sent_all`), and at the
receiving end what was returned and what is expected are together the payloads (`Expects.run`).
`codec_round_trip` joins the two ends. -/

namespace Synbad

namespace PendingFrame

/-! ## What the progress means -/

/-- The bytes of the current frame read so far. -/
def consumed (f : PendingFrame) : Bytes := f.header.take f.headerRead ++ f.body.take f.bodyRead

/-- Waiting for the rest of the header: the body has not been begun. -/
structure InHeader (f : PendingFrame) : Prop where
  size : f.header.length = 4
  some_left : f.headerRead < 4
  body : f.body = []
  bodyRead : f.bodyRead = 0

/-- The header is complete and acceptable, and the body has the announced size. -/
structure HasBody (f : PendingFrame) : Prop where
  size : f.header.length = 4
  headerRead : f.headerRead = 4
  lengthOk : lengthOk (Bytes.fromBe f.header) = true
  body : f.body.length = Bytes.fromBe f.header
  bodyRead : f.bodyRead ≤ f.body.length

/-- The states in which a read can be left. -/
def Waiting (f : PendingFrame) : Prop := f.InHeader ∨ f.HasBody ∧ f.bodyRead < f.body.length

/-- A frame that has just been begun is in its header. -/
theorem inHeader_default : default.InHeader := ⟨rfl, by decide, rfl, rfl⟩

/-- In the header phase only header bytes have been read. -/
theorem InHeader.consumed_eq {f : PendingFrame} (h : f.InHeader) :
    f.consumed = f.header.take f.headerRead := by
  rw [consumed, h.body, List.take_nil, List.append_nil]

/-- In the body phase the whole header has been read. -/
theorem HasBody.consumed_eq {f : PendingFrame} (h : f.HasBody) :
    f.consumed = f.header ++ f.body.take f.bodyRead := by
  rw [consumed, h.headerRead, ← h.size, List.take_length]

/-- Putting bytes into the header, behind those that are there. -/
def fillHeader (f : PendingFrame) (bytes : Bytes) : PendingFrame :=
  { f with
    header := f.header.overwrite f.headerRead bytes, headerRead := f.headerRead + bytes.length }

/-- Putting bytes into the body, behind those that are there. -/
def fillBody (f : PendingFrame) (bytes : Bytes) : PendingFrame :=
  { f with body := f.body.overwrite f.bodyRead bytes, bodyRead := f.bodyRead + bytes.length }

/-- Header bytes are appended to what has been read. -/
theorem fillHeader_consumed {f : PendingFrame} (h : f.InHeader) {bytes : Bytes} :
    (f.fillHeader bytes).consumed = f.consumed ++ bytes := by
  have hle : f.headerRead ≤ f.header.length := by
    rw [h.size]
    exact h.some_left.le
  rw [h.consumed_eq]
  show (f.header.overwrite f.headerRead bytes).take (f.headerRead + bytes.length) ++
    f.body.take f.bodyRead = _
  rw [Bytes.take_overwrite hle, h.body, List.take_nil, List.append_nil]

/-- Body bytes are appended to what has been read. -/
theorem fillBody_consumed {f : PendingFrame} (h : f.HasBody) {bytes : Bytes} :
    (f.fillBody bytes).consumed = f.consumed ++ bytes := by
  show f.header.take f.headerRead ++
    (f.body.overwrite f.bodyRead bytes).take (f.bodyRead + bytes.length) = _
  rw [Bytes.take_overwrite h.bodyRead, consumed, List.append_assoc]

/-- Body bytes that fit keep the body phase: the header and the announced size stay as they are. -/
theorem fillBody_hasBody {f : PendingFrame} (h : f.HasBody) {bytes : Bytes}
    (hfit : bytes.length ≤ f.body.length - f.bodyRead) : (f.fillBody bytes).HasBody := by
  have hle := h.bodyRead
  have hlen : (f.body.overwrite f.bodyRead bytes).length = f.body.length :=
    Bytes.length_overwrite (by omega)
  refine ⟨h.size, h.headerRead, h.lengthOk, hlen.trans h.body, ?_⟩
  show f.bodyRead + bytes.length ≤ (f.body.overwrite f.bodyRead bytes).length
  rw [hlen]
  omega

/-! ## What a read can do -/

/-- **The outcomes of a read** over `stream`, the bytes of the current frame read before followed by
those in the socket: it is left waiting, or hands out the body the header announced, or rejects the
header without having grown the body. A read left waiting after `n` arrivals on a socket with `m`
bytes has emptied the socket or taken a byte for each. -/
inductive Reads (stream : Bytes) (n m : ℕ) : Poll → Prop
  | waiting (f : PendingFrame) (wire : Bytes) (phase : f.Waiting)
      (kept : f.consumed ++ wire = stream) (progress : wire = [] ∨ n + wire.length ≤ m) :
      Reads stream n m ⟨f, wire, none⟩
  | done (f : PendingFrame) (wire header ct : Bytes) (phase : f.InHeader) (fresh : f.consumed = [])
      (size : header.length = 4) (ok : lengthOk (Bytes.fromBe header) = true)
      (announced : ct.length = Bytes.fromBe header) (kept : header ++ ct ++ wire = stream) :
      Reads stream n m ⟨f, wire, some (.ok ct)⟩
  | rejected (f : PendingFrame) (wire : Bytes) (size : f.header.length = 4)
      (complete : f.headerRead = 4) (bad : lengthOk (Bytes.fromBe f.header) = false)
      (body : f.body = []) (kept : f.header ++ wire = stream) :
      Reads stream n m ⟨f, wire, some (.error (.oversize (Bytes.fromBe f.header)))⟩

/-- One more arrival that took at least one byte. -/
theorem Reads.more {stream : Bytes} {n m m' : ℕ} {poll : Poll} (h : Reads stream n m poll)
    (hm : m + 1 ≤ m') : Reads stream (n + 1) m' poll := by
  cases h with
  | waiting f wire phase kept progress =>
      refine .waiting f wire phase kept ?_
      rcases progress with hnil | hle
      · exact Or.inl hnil
      · right
        omega
  | done f wire header ct phase fresh size ok announced kept =>
      exact .done f wire header ct phase fresh size ok announced kept
  | rejected f wire size complete bad body kept =>
      exact .rejected f wire size complete bad body kept

/-- What a read may do with some arrivals it may do with one more, if the socket was empty. -/
theorem Reads.idle {stream : Bytes} {n m : ℕ} {poll : Poll} (h : Reads stream n m poll)
    (hempty : m = 0) : Reads stream (n + 1) m poll := by
  cases h with
  | waiting f wire phase kept progress =>
      refine .waiting f wire phase kept (Or.inl ?_)
      rcases progress with hnil | hle
      · exact hnil
      · exact List.length_eq_zero_iff.mp (by omega)
  | done f wire header ct phase fresh size ok announced kept =>
      exact .done f wire header ct phase fresh size ok announced kept
  | rejected f wire size complete bad body kept =>
      exact .rejected f wire size complete bad body kept

/-- A body that is complete is handed out, and the next frame can be begun. -/
theorem finish_reads {f : PendingFrame} (h : f.HasBody) (hfull : ¬ f.bodyRead < f.body.length)
    (wire : Bytes) (n m : ℕ) : Reads (f.consumed ++ wire) n m (f.finish wire) := by
  have hread : f.bodyRead = f.body.length := le_antisymm h.bodyRead (not_lt.mp hfull)
  refine .done _ wire f.header f.body ⟨h.size, Nat.zero_lt_succ 3, rfl, rfl⟩ rfl h.size h.lengthOk
    h.body ?_
  rw [h.consumed_eq, hread, List.take_length]

/-- **The body loop** over any arrivals does what a read may do: it is left waiting with nothing lost,
or hands the body out. -/
theorem readBody_reads {f : PendingFrame} (h : f.HasBody) (wire : Bytes) (sizes : List ℕ) :
    Reads (f.consumed ++ wire) sizes.length wire.length (f.readBody wire (sizes.map .data)) := by
  induction sizes generalizing f wire with
  | nil =>
      simp only [List.map_nil, readBody]
      split
      · next hleft =>
        exact .waiting f wire (Or.inr ⟨h, hleft⟩) rfl (Or.inr (by rw [List.length_nil, zero_add]))
      · next hfull => exact finish_reads h hfull wire _ _
  | cons size sizes ih =>
      simp only [List.map_cons, readBody, List.length_cons]
      split
      · next hleft =>
        by_cases hwire : wire = []
        · -- nothing there: the loop goes on waiting
          rw [streamRead, if_pos hwire]
          exact (ih h wire).idle (by rw [hwire, List.length_nil])
        · rw [streamRead, if_neg hwire]
          have hpos : 0 < wire.length := List.length_pos_iff.mpr hwire
          have hfit : (wire.take (min (size + 1) (f.body.length - f.bodyRead))).length ≤
              f.body.length - f.bodyRead := by
            rw [List.length_take]
            omega
          have hnext := ih (fillBody_hasBody h hfit)
            (wire.drop (min (size + 1) (f.body.length - f.bodyRead)))
          rw [fillBody_consumed h, List.append_assoc, List.take_append_drop] at hnext
          refine hnext.more ?_
          rw [List.length_drop]
          omega
      · next hfull => exact finish_reads h hfull wire _ _

/-- What comes between the two loops does what a read may do, whether the header was completed just
now or in an earlier poll. -/
theorem startBody_reads {f : PendingFrame} (hsize : f.header.length = 4) (hread : f.headerRead = 4)
    (hbody : f.body = [] ∧ f.bodyRead = 0 ∨ f.HasBody ∧ f.body ≠ []) (wire : Bytes)
    (sizes : List ℕ) :
    Reads (f.consumed ++ wire) sizes.length wire.length (f.startBody wire (sizes.map .data)) := by
  rcases hbody with ⟨hnil, hzero⟩ | ⟨hhas, hne⟩
  · have hconsumed : f.consumed = f.header := by
      rw [consumed, hnil, List.take_nil, List.append_nil, hread, ← hsize, List.take_length]
    rw [startBody, if_pos hnil]
    cases hok : lengthOk (Bytes.fromBe f.header) with
    | false =>
        simp only [hok, Bool.not_false, if_true]
        exact .rejected f wire hsize hread hok hnil (by rw [hconsumed])
    | true =>
        simp only [hok, Bool.not_true, Bool.false_eq_true, if_false]
        have hgrown : ({ f with body := List.replicate (Bytes.fromBe f.header) 0 }).HasBody :=
          ⟨hsize, hread, hok, List.length_replicate, by rw [hzero]; exact Nat.zero_le _⟩
        have hkept : ({ f with body := List.replicate (Bytes.fromBe f.header) 0 }).consumed =
            f.consumed := by
          rw [hgrown.consumed_eq, hconsumed]
          show f.header ++ List.take f.bodyRead _ = f.header
          rw [hzero, List.take_zero, List.append_nil]
        rw [← hkept]
        exact readBody_reads hgrown wire sizes
  · rw [startBody, if_neg hne]
    exact readBody_reads hhas wire sizes

/-- With the header complete, a read goes straight on to the body. -/
theorem read_of_header {f : PendingFrame} (h : f.headerRead = 4) (wire : Bytes)
    (events : List ReadEvent) : f.read wire events = f.startBody wire events := by
  cases events with
  | nil => rw [read, if_neg (by rw [h]; decide)]
  | cons event events => rw [read, if_neg (by rw [h]; decide)]

/-- **A read** from a state in which one can be left, over any arrivals. -/
theorem read_reads {f : PendingFrame} (h : f.Waiting) (wire : Bytes) (sizes : List ℕ) :
    Reads (f.consumed ++ wire) sizes.length wire.length (f.read wire (sizes.map .data)) := by
  rcases h with hhead | ⟨hbody, hleft⟩
  · -- Induction on the arrivals; each either leaves the header incomplete or starts the body.
    induction sizes generalizing f wire with
    | nil =>
        rw [List.map_nil, read, if_pos hhead.some_left]
        exact .waiting f wire (Or.inl hhead) rfl (Or.inr (by rw [List.length_nil, zero_add]))
    | cons size sizes ih =>
        rw [List.map_cons, read, if_pos hhead.some_left, List.length_cons]
        by_cases hwire : wire = []
        · rw [streamRead, if_pos hwire]
          exact (ih wire hhead).idle (by rw [hwire, List.length_nil])
        · rw [streamRead, if_neg hwire]
          have hpos : 0 < wire.length := List.length_pos_iff.mpr hwire
          generalize hk : min (size + 1) (4 - f.headerRead) = k
          have hroom := hhead.some_left
          have hbytes : (wire.take k).length ≤ 4 - f.headerRead := by
            rw [List.length_take]
            omega
          have hlen : (f.header.overwrite f.headerRead (wire.take k)).length = 4 := by
            rw [Bytes.length_overwrite (by rw [hhead.size]; omega), hhead.size]
          have hnext : Reads ((f.fillHeader (wire.take k)).consumed ++ wire.drop k) sizes.length
              (wire.drop k).length ((f.fillHeader (wire.take k)).read (wire.drop k)
                (sizes.map .data)) := by
            by_cases hmore : f.headerRead + (wire.take k).length < 4
            · exact ih (wire.drop k) ⟨hlen, hmore, hhead.body, hhead.bodyRead⟩
            · -- the header is complete: the rest of the arrivals goes to the body
              have hfull : (f.fillHeader (wire.take k)).headerRead = 4 := by
                show f.headerRead + (wire.take k).length = 4
                omega
              rw [read_of_header hfull]
              exact startBody_reads (f := f.fillHeader (wire.take k)) hlen hfull
                (Or.inl ⟨hhead.body, hhead.bodyRead⟩) (wire.drop k) sizes
          rw [fillHeader_consumed hhead, List.append_assoc, List.take_append_drop] at hnext
          refine hnext.more ?_
          rw [List.length_drop]
          omega
  · -- A resumed body is never empty, so `startBody` does not check its header a second time.
    rw [read_of_header hbody.headerRead]
    refine startBody_reads hbody.size hbody.headerRead (Or.inr ⟨hbody, ?_⟩) wire sizes
    intro hnil
    rw [hnil] at hleft
    exact absurd hleft (Nat.not_lt_zero _)

/-! ## Reading a stream of frames -/

/-- Two ways to cut a header off the same stream agree. -/
theorem header_unique {header header' tail tail' : Bytes} (hsize : header.length = 4)
    (hsize' : header'.length = 4) (h : header ++ tail = header' ++ tail') :
    header = header' ∧ tail = tail' :=
  List.append_inj h (hsize.trans hsize'.symm)

/-- An admissible length survives the four bytes of the header. -/
theorem fromBe_length {ct : Bytes} (h : lengthOk ct.length = true) :
    Bytes.fromBe (Bytes.toBe 4 ct.length) = ct.length := by
  have hle : ct.length ≤ maxFrameBytes + 16 := by
    simp only [lengthOk, Bool.and_eq_true, decide_eq_true_eq] at h
    exact h.2
  exact Bytes.fromBe_toBe_of_lt (lt_of_le_of_lt hle (by decide))

/-- A read that waits has not got the whole frame. -/
theorem Waiting.unfinished {f : PendingFrame} (h : f.Waiting) {ct wire rest : Bytes}
    (hct : lengthOk ct.length = true) (hstream : f.consumed ++ wire = frameBytes ct ++ rest) :
    f.consumed.length < (frameBytes ct).length := by
  have hframe : (frameBytes ct).length = 4 + ct.length := by
    rw [frameBytes, List.length_append, Bytes.length_toBe]
  rcases h with hhead | ⟨hbody, hleft⟩
  · rw [hhead.consumed_eq, List.length_take, hframe]
    have := hhead.some_left
    omega
  · rw [hbody.consumed_eq, frameBytes, List.append_assoc, List.append_assoc] at hstream
    obtain ⟨hheader, -⟩ := header_unique hbody.size (Bytes.length_toBe 4 ct.length) hstream
    have hlen : f.body.length = ct.length := by
      rw [hbody.body, hheader, fromBe_length hct]
    rw [hbody.consumed_eq, List.length_append, List.length_take, hbody.size, hframe]
    omega

/-- **One frame**: a read over a stream that starts with a frame is left waiting in the middle of
it, having taken a byte for each arrival, or hands out exactly its ciphertext. -/
theorem read_frame {f : PendingFrame} (h : f.Waiting) {ct wire rest : Bytes}
    (hct : lengthOk ct.length = true) (hstream : f.consumed ++ wire = frameBytes ct ++ rest)
    (sizes : List ℕ) :
    ((f.read wire (sizes.map .data)).result = none ∧
        (f.read wire (sizes.map .data)).frame.Waiting ∧
        (f.read wire (sizes.map .data)).frame.consumed ++ (f.read wire (sizes.map .data)).wire =
          frameBytes ct ++ rest ∧
        sizes.length < wire.length) ∨
      ((f.read wire (sizes.map .data)).result = some (.ok ct) ∧
        (f.read wire (sizes.map .data)).frame.Waiting ∧
        (f.read wire (sizes.map .data)).frame.consumed = [] ∧
        (f.read wire (sizes.map .data)).wire = rest) := by
  have hreads := read_reads h wire sizes
  rw [hstream] at hreads
  generalize f.read wire (sizes.map .data) = poll at hreads ⊢
  cases hreads with
  | waiting f' wire' phase kept progress =>
      left
      -- The whole frame is in reach, so a socket read empty would have completed it.
      have hleft : wire' ≠ [] := by
        intro hnil
        have hshort := phase.unfinished hct kept
        have hlen := congrArg List.length kept
        rw [hnil, List.append_nil, List.length_append] at hlen
        omega
      have hpos : 0 < wire'.length := List.length_pos_iff.mpr hleft
      refine ⟨rfl, phase, kept, ?_⟩
      rcases progress with hnil | hle
      · exact absurd hnil hleft
      · omega
  | done f' wire' header ct' phase fresh size ok announced kept =>
      right
      rw [frameBytes, List.append_assoc, List.append_assoc] at kept
      obtain ⟨rfl, htail⟩ := header_unique size (Bytes.length_toBe 4 ct.length) kept
      rw [fromBe_length hct] at announced
      obtain ⟨rfl, rfl⟩ := List.append_inj htail announced
      exact ⟨rfl, Or.inl phase, fresh, rfl⟩
  | rejected f' wire' size complete bad body kept =>
      -- The header of a frame announces its own ciphertext, which is of admissible size.
      rw [frameBytes, List.append_assoc] at kept
      obtain ⟨hheader, -⟩ := header_unique size (Bytes.length_toBe 4 ct.length) kept
      rw [hheader, fromBe_length hct, hct] at bad
      cases bad

/-- **A frame of which not everything has come**: a read waits and loses nothing, or hands out the
ciphertext, once it is all there. -/
theorem read_partial {f : PendingFrame} (h : f.Waiting) {ct wire rest : Bytes}
    (hct : lengthOk ct.length = true) (hstream : f.consumed ++ wire ++ rest = frameBytes ct)
    (sizes : List ℕ) :
    ((f.read wire (sizes.map .data)).result = none ∧
        (f.read wire (sizes.map .data)).frame.Waiting ∧
        (f.read wire (sizes.map .data)).frame.consumed ++ (f.read wire (sizes.map .data)).wire =
          f.consumed ++ wire) ∨
      ((f.read wire (sizes.map .data)).result = some (.ok ct) ∧
        (f.read wire (sizes.map .data)).wire = [] ∧ f.consumed ++ wire = frameBytes ct) := by
  have hreads := read_reads h wire sizes
  generalize f.read wire (sizes.map .data) = poll at hreads ⊢
  cases hreads with
  | waiting f' wire' phase kept progress => exact Or.inl ⟨rfl, phase, kept⟩
  | done f' wire' header ct' phase fresh size ok announced kept =>
      right
      have hall := hstream
      rw [← kept, frameBytes, List.append_assoc, List.append_assoc] at hall
      obtain ⟨rfl, htail⟩ := header_unique size (Bytes.length_toBe 4 ct.length) hall
      rw [fromBe_length hct] at announced
      -- the body is complete, so nothing can be left over
      have htail' : ct' ++ (wire' ++ rest) = ct ++ [] := htail.trans (List.append_nil ct).symm
      obtain ⟨rfl, hnil⟩ := List.append_inj htail' announced
      obtain ⟨rfl, -⟩ := List.append_eq_nil_iff.mp hnil
      refine ⟨rfl, rfl, ?_⟩
      rw [← kept, List.append_nil]
      rfl
  | rejected f' wire' size complete bad body kept =>
      have hall := hstream
      rw [← kept, frameBytes, List.append_assoc] at hall
      obtain ⟨hheader, -⟩ := header_unique size (Bytes.length_toBe 4 ct.length) hall
      rw [hheader, fromBe_length hct, hct] at bad
      cases bad

/-- With nothing to read a read waits, and still has taken nothing of the frame. -/
theorem read_nothing {f : PendingFrame} (h : f.Waiting) {wire : Bytes}
    (hstream : f.consumed ++ wire = []) (sizes : List ℕ) :
    (f.read wire (sizes.map .data)).result = none ∧
      (f.read wire (sizes.map .data)).frame.Waiting ∧
      (f.read wire (sizes.map .data)).frame.consumed ++
        (f.read wire (sizes.map .data)).wire = [] := by
  have hreads := read_reads h wire sizes
  rw [hstream] at hreads
  have hno : ∀ {header tail : Bytes}, header.length = 4 → header ++ tail ≠ [] := by
    intro header tail hsize hnil
    rw [List.append_eq_nil_iff] at hnil
    rw [hnil.1] at hsize
    cases hsize
  generalize f.read wire (sizes.map .data) = poll at hreads ⊢
  cases hreads with
  | waiting f' wire' phase kept progress => exact ⟨rfl, phase, kept⟩
  | done f' wire' header ct phase fresh size ok announced kept =>
      rw [List.append_assoc] at kept
      exact absurd kept (hno size)
  | rejected f' wire' size complete bad body kept => exact absurd kept (hno size)

/-- A complete header out of range is rejected at every read, and nothing changes. -/
theorem read_stuck {f : PendingFrame} (hread : f.headerRead = 4) (hbody : f.body = [])
    (hbad : lengthOk (Bytes.fromBe f.header) = false) (wire : Bytes) (events : List ReadEvent) :
    f.read wire events = ⟨f, wire, some (.error (.oversize (Bytes.fromBe f.header)))⟩ := by
  rw [read_of_header hread, startBody, if_pos hbody]
  simp only [hbad, Bool.not_false, if_true]

/-- The read has rejected the header, for good, or is still waiting for some of it. -/
def Refuses (header : Bytes) (poll : Poll) : Prop :=
  poll.frame.body = [] ∧
    (poll.result = none ∨
      poll.result = some (.error (.oversize (Bytes.fromBe header))) ∧
        ∀ wire events, poll.frame.read wire events =
          ⟨poll.frame, wire, some (.error (.oversize (Bytes.fromBe header)))⟩)

/-- **A header out of range** is rejected, in whatever pieces it comes, and the body is never
grown; with an arrival for every byte in the socket the rejection is there. -/
theorem read_bad_header {f : PendingFrame} (h : f.Waiting) {wire header tail : Bytes}
    (hsize : header.length = 4) (hbad : lengthOk (Bytes.fromBe header) = false)
    (hstream : f.consumed ++ wire = header ++ tail) (sizes : List ℕ) :
    Refuses header (f.read wire (sizes.map .data)) ∧
      (wire.length ≤ sizes.length → (f.read wire (sizes.map .data)).result ≠ none) := by
  have hreads := read_reads h wire sizes
  rw [hstream] at hreads
  generalize f.read wire (sizes.map .data) = poll at hreads ⊢
  cases hreads with
  | waiting f' wire' phase kept progress =>
      rcases phase with hhead | ⟨hbody, -⟩
      -- the header is not complete, so the bytes have not all come
      · have hleft : wire' ≠ [] := by
          intro hnil
          have hlen := congrArg List.length kept
          rw [hnil, List.append_nil, List.length_append, hhead.consumed_eq, List.length_take] at hlen
          have := hhead.some_left
          omega
        have hpos : 0 < wire'.length := List.length_pos_iff.mpr hleft
        refine ⟨⟨hhead.body, Or.inl rfl⟩, fun hall => ?_⟩
        rcases progress with hnil | hle
        · exact absurd hnil hleft
        · omega
      · -- A body is only started behind an acceptable header.
        rw [hbody.consumed_eq, List.append_assoc] at kept
        obtain ⟨hheader, -⟩ := header_unique hbody.size hsize kept
        have hok := hbody.lengthOk
        rw [hheader, hbad] at hok
        cases hok
  | done f' wire' header' ct phase fresh size ok announced kept =>
      -- a frame that is complete was announced by a header that is fine
      rw [List.append_assoc] at kept
      obtain ⟨rfl, -⟩ := header_unique size hsize kept
      rw [hbad] at ok
      cases ok
  | rejected f' wire' size complete bad body kept =>
      obtain ⟨rfl, -⟩ := header_unique size hsize kept
      exact ⟨⟨body, Or.inr ⟨rfl, read_stuck complete body bad⟩⟩, fun _ => nofun⟩

end PendingFrame

/-! ## The sending end -/

/-- A payload of admissible size makes a ciphertext of admissible size that decrypts to it. -/
theorem Aead.Lawful.frame {aead : Aead} (hlaw : aead.Lawful maxFrameBytes) (key nonce : Bytes)
    {payload : Bytes} (hsize : payload.length ≤ maxFrameBytes) :
    ∃ ct, aead.encrypt key nonce payload = some ct ∧ PendingFrame.lengthOk ct.length = true ∧
      aead.decrypt key nonce ct = some payload := by
  obtain ⟨ct, hct, hlen, hpt⟩ := hlaw.encrypts key nonce payload hsize
  refine ⟨ct, hct, ?_, hpt⟩
  rw [hlen, PendingFrame.lengthOk, Bool.and_eq_true, decide_eq_true_eq, decide_eq_true_eq]
  omega

/-- The bytes of these payloads as frames, counted from `counter`. -/
def framesFrom (aead : Aead) (key pre : Bytes) : ℕ → List Bytes → Bytes
  | _, [] => []
  | counter, payload :: payloads =>
      ((aead.encrypt key (buildNonce pre counter) payload).map frameBytes).getD [] ++
        framesFrom aead key pre (counter + 1) payloads

/-- The frames of two lists of payloads one after the other are those of the first and, with the
counter as far on, those of the second. -/
theorem framesFrom_append (aead : Aead) (key pre : Bytes) (counter : ℕ) (ps qs : List Bytes) :
    framesFrom aead key pre counter (ps ++ qs) =
      framesFrom aead key pre counter ps ++ framesFrom aead key pre (counter + ps.length) qs := by
  induction ps generalizing counter with
  | nil => rfl
  | cons p ps ih =>
      rw [List.cons_append, framesFrom, framesFrom, ih, List.append_assoc, List.length_cons,
        show counter + 1 + ps.length = counter + (ps.length + 1) by omega]

namespace SendOp

/-- The payload of a send, and nothing for a split. -/
def payload? : SendOp → Option Bytes
  | .send payload _ => some payload
  | .split => none

/-- A send of admissible size that goes through, or a split. -/
def Clean : SendOp → Prop
  | .send payload fate => payload.length ≤ maxFrameBytes ∧ fate = .completes
  | .split => True

/-- The payloads of clean sends are of admissible size. -/
theorem length_payload {ops : List SendOp} (h : ∀ op ∈ ops, op.Clean) :
    ∀ p ∈ ops.filterMap payload?, p.length ≤ maxFrameBytes := by
  intro p hp
  obtain ⟨op, hop, hpayload⟩ := List.mem_filterMap.mp hp
  cases op with
  | split => cases hpayload
  | send payload fate =>
      cases hpayload
      exact (h _ hop).1

end SendOp

/-- A send of admissible size that goes through is accepted while counters are left. -/
theorem sendFrame_accepted {aead : Aead} (hlaw : aead.Lawful maxFrameBytes) (key pre : Bytes)
    {counter : ℕ} (hcounter : counter < maxCounter) {payload : Bytes}
    (hsize : payload.length ≤ maxFrameBytes) :
    ∃ ct, aead.encrypt key (buildNonce pre counter) payload = some ct ∧
      sendFrame aead key pre counter payload .completes =
        ⟨counter + 1, some ct, frameBytes ct, some (.ok ())⟩ := by
  obtain ⟨ct, hct, -, -⟩ := hlaw.frame key (buildNonce pre counter) hsize
  refine ⟨ct, hct, ?_⟩
  rw [sendFrame, if_neg (not_lt.mpr hsize), hct]
  simp only [hcounter.ne, if_false]

namespace Sender

/-- What a sending end has done after sending these payloads: one frame for each, every send
accepted. -/
structure Sent (aead : Aead) (s : CipherStream) (payloads : List Bytes) (t : Sender) : Prop where
  joined : t.endpoint.joined = { s with sendCounter := s.sendCounter + payloads.length }
  wire : t.wire = framesFrom aead s.sendKey s.sendPrefix s.sendCounter payloads
  results : t.results = payloads.map fun _ => some (.ok ())

/-- One operation of a clean sender: its history is that of the payloads so far with its own behind
them. -/
theorem Sent.step {aead : Aead} (hlaw : aead.Lawful maxFrameBytes) {s : CipherStream}
    {payloads : List Bytes} {t : Sender} (h : t.Sent aead s payloads) {op : SendOp} (hop : op.Clean)
    (hcounter : s.sendCounter + (payloads ++ op.payload?.toList).length ≤ maxCounter) :
    (t.step aead op).Sent aead s (payloads ++ op.payload?.toList) := by
  cases op with
  | split =>
      rw [SendOp.payload?, Option.toList_none, List.append_nil]
      exact ⟨t.endpoint.split_joined.trans h.joined, h.wire, h.results⟩
  | send payload fate =>
      obtain ⟨hsize, rfl⟩ := hop
      rw [SendOp.payload?, Option.toList_some] at hcounter ⊢
      rw [List.length_append, List.length_singleton] at hcounter
      have hleft : s.sendCounter + payloads.length < maxCounter := by omega
      obtain ⟨ct, hct, hframe⟩ :=
        sendFrame_accepted hlaw s.sendKey s.sendPrefix hleft hsize
      obtain ⟨hjoined, hwire, hresults, -⟩ := t.step_send aead payload .completes h.joined hframe
      refine ⟨?_, ?_, ?_⟩
      · rw [hjoined, List.length_append, List.length_singleton, Nat.add_assoc]
      · rw [hwire, h.wire, framesFrom_append]
        simp only [framesFrom, hct, Option.map_some, Option.getD_some, List.append_nil]
      · rw [hresults, h.results, List.map_append]
        rfl

/-- **A clean sender** puts one frame on the wire for each payload, in order. -/
theorem sent_all {aead : Aead} (hlaw : aead.Lawful maxFrameBytes) (s : CipherStream)
    (ops : List SendOp) (hops : ∀ op ∈ ops, op.Clean)
    (hcounter : s.sendCounter + (ops.filterMap SendOp.payload?).length ≤ maxCounter) :
    (ops.foldl (Sender.step aead) (.start s)).Sent aead s (ops.filterMap SendOp.payload?) := by
  -- From the last operation back: `Sent` speaks of the sends made so far, not of those to come.
  induction ops using List.reverseRecOn with
  | nil => exact ⟨rfl, rfl, rfl⟩
  | append_singleton ops op ih =>
      rw [List.filterMap_append] at hcounter ⊢
      have hone : [op].filterMap SendOp.payload? = op.payload?.toList := by
        cases op <;> rfl
      rw [hone] at hcounter ⊢
      rw [List.foldl_append, List.foldl_cons, List.foldl_nil]
      have hbefore : s.sendCounter + (ops.filterMap SendOp.payload?).length ≤ maxCounter := by
        rw [List.length_append] at hcounter
        omega
      have hsent := ih (fun o ho => hops o (List.mem_append_left _ ho)) hbefore
      exact hsent.step hlaw (hops op (List.mem_append_right _ (List.mem_singleton_self op))) hcounter

end Sender

/-! ## The receiving end -/

/-- What can happen at a receiving end: a `recv` during whose life bytes arrive in these pieces,
finished or dropped, or a split. -/
inductive RecvOp where
  | recv (sizes : List ℕ)
  | split

/-- A receiving end, the bytes waiting in its socket, and what its completed calls returned. -/
structure Receiver where
  endpoint : Endpoint
  wire : Bytes
  returned : List (Except FrameError Bytes)

namespace Receiver

/-- One operation at a receiving end: a receive over some arrivals, or the split of its stream. -/
def step (aead : Aead) (r : Receiver) : RecvOp → Receiver
  | .split => { r with endpoint := r.endpoint.split }
  | .recv sizes =>
      let out := r.endpoint.recv aead r.wire (sizes.map .data)
      ⟨out.1, out.2.wire, r.returned ++ out.2.result.toList⟩

/-- The receiving end has returned `got`, and what it has read of the current frame, followed by
what is in its socket, is the frames of `left`. -/
structure Expects (aead : Aead) (got left : List Bytes) (r : Receiver) : Prop where
  returned : r.returned = got.map .ok
  waiting : r.endpoint.joined.recvFrame.Waiting
  counter : r.endpoint.joined.recvCounter + left.length ≤ maxCounter
  sizes : ∀ p ∈ left, p.length ≤ maxFrameBytes
  stream : r.endpoint.joined.recvFrame.consumed ++ r.wire =
    framesFrom aead r.endpoint.joined.recvKey r.endpoint.joined.recvPrefix
      r.endpoint.joined.recvCounter left

/-- **A receive at a receiving end**, split or not, is `recvFrame` on its current state. -/
theorem step_recv (aead : Aead) (r : Receiver) (sizes : List ℕ) {e : CipherStream}
    (he : r.endpoint.joined = e) {out : RecvOutcome}
    (hout : recvFrame aead e.recvKey e.recvPrefix e.recvCounter e.recvFrame r.wire
      (sizes.map .data) = out) :
    (r.step aead (.recv sizes)).endpoint.joined =
        { e with recvCounter := out.counter, recvFrame := out.frame } ∧
      (r.step aead (.recv sizes)).wire = out.wire ∧
      (r.step aead (.recv sizes)).returned = r.returned ++ out.result.toList := by
  subst he
  subst hout
  obtain ⟨hjoined, hsame⟩ := r.endpoint.recv_joined aead r.wire (sizes.map .data)
  have hout : (r.endpoint.recv aead r.wire (sizes.map .data)).2 =
      recvFrame aead r.endpoint.joined.recvKey r.endpoint.joined.recvPrefix
        r.endpoint.joined.recvCounter r.endpoint.joined.recvFrame r.wire (sizes.map .data) := hsame
  refine ⟨hjoined, ?_, ?_⟩
  · rw [← hout]
    rfl
  · rw [← hout]
    rfl

/-- A read that is left waiting leaves a receive waiting. -/
theorem recvFrame_waiting {aead : Aead} {key pre : Bytes} {counter : ℕ} {f : PendingFrame}
    {wire : Bytes} {events : List ReadEvent} (h : (f.read wire events).result = none) :
    recvFrame aead key pre counter f wire events =
      ⟨counter, (f.read wire events).frame, (f.read wire events).wire, none⟩ := by
  rw [recvFrame, h]

/-- A read that hands out a ciphertext that decrypts, with a counter left, is a completed
receive. -/
theorem recvFrame_done {aead : Aead} {key pre : Bytes} {counter : ℕ} {f : PendingFrame}
    {wire ct pt : Bytes} {events : List ReadEvent}
    (h : (f.read wire events).result = some (.ok ct))
    (hpt : aead.decrypt key (buildNonce pre counter) ct = some pt) (hcounter : counter < maxCounter) :
    recvFrame aead key pre counter f wire events =
      ⟨counter + 1, (f.read wire events).frame, (f.read wire events).wire, some (.ok pt)⟩ := by
  rw [recvFrame, h]
  simp only [hpt, hcounter.ne, if_false]

/-- When nothing is expected any more, a receive waits and returns nothing. -/
theorem Expects.recv_nothing {aead : Aead} {got : List Bytes} {r : Receiver}
    (h : r.Expects aead got []) (sizes : List ℕ) :
    (r.step aead (.recv sizes)).Expects aead got [] := by
  obtain ⟨hresult, hwaiting, hstream⟩ := PendingFrame.read_nothing h.waiting h.stream sizes
  obtain ⟨hjoined, hwire, hreturned⟩ := r.step_recv aead sizes rfl (recvFrame_waiting hresult)
  refine ⟨?_, ?_, ?_, h.sizes, ?_⟩
  · rw [hreturned, Option.toList_none, List.append_nil, h.returned]
  · rw [hjoined]
    exact hwaiting
  · rw [hjoined]
    exact h.counter
  · rw [hjoined, hwire]
    exact hstream

/-- **One receive**: it is left waiting with nothing lost, or returns the next payload; with an
arrival for every byte in the socket it does the latter. -/
theorem Expects.recv {aead : Aead} (hlaw : aead.Lawful maxFrameBytes) {got left : List Bytes}
    {p : Bytes} {r : Receiver} (h : r.Expects aead got (p :: left)) (sizes : List ℕ) :
    ((r.step aead (.recv sizes)).Expects aead got (p :: left) ∧ sizes.length < r.wire.length) ∨
      (r.step aead (.recv sizes)).Expects aead (got ++ [p]) left := by
  have hsize : p.length ≤ maxFrameBytes := h.sizes p List.mem_cons_self
  obtain ⟨ct, hct, hok, hpt⟩ := hlaw.frame r.endpoint.joined.recvKey
    (buildNonce r.endpoint.joined.recvPrefix r.endpoint.joined.recvCounter) hsize
  have hstream := h.stream
  rw [framesFrom, hct, Option.map_some, Option.getD_some] at hstream
  have hcounter := h.counter
  rw [List.length_cons] at hcounter
  rcases PendingFrame.read_frame h.waiting hok hstream sizes with
    ⟨hresult, hwaiting, hkept, hshort⟩ | ⟨hresult, hwaiting, hfresh, hrest⟩
  · -- Abandoned in the middle of the frame: the counter stays, the bytes read are kept.
    left
    obtain ⟨hjoined, hwire, hreturned⟩ := r.step_recv aead sizes rfl (recvFrame_waiting hresult)
    refine ⟨⟨?_, ?_, ?_, h.sizes, ?_⟩, hshort⟩
    · rw [hreturned, Option.toList_none, List.append_nil, h.returned]
    · rw [hjoined]
      exact hwaiting
    · rw [hjoined]
      exact h.counter
    · rw [hjoined, hwire]
      show _ ++ _ = framesFrom aead r.endpoint.joined.recvKey r.endpoint.joined.recvPrefix
        r.endpoint.joined.recvCounter (p :: left)
      rw [framesFrom, hct, Option.map_some, Option.getD_some]
      exact hkept
  · -- Completed: `left` and the receive counter move on by one together.
    right
    have hleft : r.endpoint.joined.recvCounter < maxCounter := by omega
    obtain ⟨hjoined, hwire, hreturned⟩ :=
      r.step_recv aead sizes rfl (recvFrame_done hresult hpt hleft)
    refine ⟨?_, ?_, ?_, fun q hq => h.sizes q (List.mem_cons_of_mem p hq), ?_⟩
    · rw [hreturned, h.returned, List.map_append]
      rfl
    · rw [hjoined]
      exact hwaiting
    · rw [hjoined]
      show r.endpoint.joined.recvCounter + 1 + left.length ≤ maxCounter
      omega
    · rw [hjoined, hwire]
      show (PendingFrame.read _ _ _).frame.consumed ++ _ = framesFrom aead r.endpoint.joined.recvKey
        r.endpoint.joined.recvPrefix (r.endpoint.joined.recvCounter + 1) left
      rw [hfresh, List.nil_append, hrest]

/-- A receive with an arrival for every byte in the socket returns the next payload. -/
theorem Expects.returned_next {aead : Aead} (hlaw : aead.Lawful maxFrameBytes)
    {got left : List Bytes} {p : Bytes} {r : Receiver} (h : r.Expects aead got (p :: left))
    {sizes : List ℕ} (hall : r.wire.length ≤ sizes.length) :
    (r.step aead (.recv sizes)).returned = (got ++ [p]).map .ok := by
  rcases h.recv hlaw sizes with ⟨-, hshort⟩ | hnext
  · omega
  · exact hnext.returned

/-- One operation of a receiving end takes it from one part of the payloads to the same part or a
longer one. -/
theorem Expects.step {aead : Aead} (hlaw : aead.Lawful maxFrameBytes) {payloads : List Bytes}
    {r : Receiver} (h : ∃ got left, got ++ left = payloads ∧ r.Expects aead got left)
    (op : RecvOp) :
    ∃ got left, got ++ left = payloads ∧ (r.step aead op).Expects aead got left := by
  obtain ⟨got, left, hpayloads, hexpects⟩ := h
  cases op with
  | split =>
      have hsame := r.endpoint.split_joined
      refine ⟨got, left, hpayloads, ?_⟩
      refine ⟨hexpects.returned, ?_, ?_, hexpects.sizes, ?_⟩
      · show r.endpoint.split.joined.recvFrame.Waiting
        rw [hsame]
        exact hexpects.waiting
      · show r.endpoint.split.joined.recvCounter + _ ≤ _
        rw [hsame]
        exact hexpects.counter
      · show r.endpoint.split.joined.recvFrame.consumed ++ r.wire =
          framesFrom aead r.endpoint.split.joined.recvKey r.endpoint.split.joined.recvPrefix
            r.endpoint.split.joined.recvCounter left
        rw [hsame]
        exact hexpects.stream
  | recv sizes =>
      cases left with
      | nil => exact ⟨got, [], hpayloads, hexpects.recv_nothing sizes⟩
      | cons p left =>
          rcases hexpects.recv hlaw sizes with ⟨hwait, -⟩ | hdone
          · exact ⟨got, p :: left, hpayloads, hwait⟩
          · refine ⟨got ++ [p], left, ?_, hdone⟩
            rw [List.append_assoc]
            exact hpayloads

/-- Any operations of a receiving end leave it with a first part of the payloads returned and the
others expected. -/
theorem Expects.run {aead : Aead} (hlaw : aead.Lawful maxFrameBytes) {payloads : List Bytes}
    {r : Receiver} (h : ∃ got left, got ++ left = payloads ∧ r.Expects aead got left)
    (ops : List RecvOp) :
    ∃ got left, got ++ left = payloads ∧ (ops.foldl (Receiver.step aead) r).Expects aead got left := by
  induction ops generalizing r with
  | nil => exact h
  | cons op ops ih => exact ih (Expects.step hlaw h op)

/-- An emptied socket leaves nothing to expect: a frame that has not been returned is still there, in
part at least. -/
theorem Expects.left_eq_nil {aead : Aead} (hlaw : aead.Lawful maxFrameBytes)
    {got left : List Bytes} {r : Receiver} (h : r.Expects aead got left) (hwire : r.wire = []) :
    left = [] := by
  cases left with
  | nil => rfl
  | cons p left =>
      obtain ⟨ct, hct, hok, -⟩ := hlaw.frame r.endpoint.joined.recvKey
        (buildNonce r.endpoint.joined.recvPrefix r.endpoint.joined.recvCounter)
        (h.sizes p List.mem_cons_self)
      have hstream := h.stream
      rw [framesFrom, hct, Option.map_some, Option.getD_some] at hstream
      -- A payload still expected has a whole frame in `consumed ++ wire`, more than is consumed.
      have hshort := h.waiting.unfinished hok hstream
      have hlength := congrArg List.length hstream
      rw [hwire, List.append_nil, List.length_append] at hlength
      omega

end Receiver

/-! ## The round trip -/

/-- **The frame codec round trip.** Whatever payloads of admissible size one end sends (splitting
its stream where it likes), and in whatever pieces the bytes arrive, however often a receive is
abandoned and called again, and wherever the receiving stream is split: every send is accepted, the
completed receives have returned the first payloads in order, all of them once the socket is empty,
and a receive that is not cut short returns the next one. And in whatever pieces a header out of
range arrives, it is rejected for good without growing the body. -/
theorem codec_round_trip {aead : Aead} (hlaw : aead.Lawful maxFrameBytes)
    (sendKey recvKey sendPrefix recvPrefix : Bytes) (sends : List SendOp)
    (hsends : ∀ op ∈ sends, op.Clean)
    (hcount : (sends.filterMap SendOp.payload?).length ≤ maxCounter) (ops : List RecvOp) :
    let payloads := sends.filterMap SendOp.payload?
    let sender := sends.foldl (Sender.step aead)
      (.start (.new sendKey recvKey sendPrefix recvPrefix))
    let receiver := ops.foldl (Receiver.step aead)
      ⟨.whole (.new recvKey sendKey recvPrefix sendPrefix), sender.wire, []⟩
    sender.results = payloads.map (fun _ => some (.ok ())) ∧
      receiver.returned = (payloads.take receiver.returned.length).map .ok ∧
      (receiver.wire = [] → receiver.returned = payloads.map .ok) ∧
      (∀ sizes, receiver.returned.length < payloads.length → receiver.wire.length ≤ sizes.length →
        (receiver.step aead (.recv sizes)).returned =
          (payloads.take (receiver.returned.length + 1)).map .ok) ∧
      ∀ (f : PendingFrame) (wire header tail : Bytes) (sizes : List ℕ), f.Waiting →
        header.length = 4 → PendingFrame.lengthOk (Bytes.fromBe header) = false →
        f.consumed ++ wire = header ++ tail →
        PendingFrame.Refuses header (f.read wire (sizes.map .data)) ∧
          (wire.length ≤ sizes.length → (f.read wire (sizes.map .data)).result ≠ none) := by
  intro payloads sender receiver
  have hsent : sender.Sent aead (.new sendKey recvKey sendPrefix recvPrefix) payloads := by
    refine Sender.sent_all hlaw _ sends hsends ?_
    rw [show (CipherStream.new sendKey recvKey sendPrefix recvPrefix).sendCounter = 0 from rfl,
      zero_add]
    exact hcount
  -- Nothing has been read yet: the whole wire is the frames of the payloads still expected.
  have hstart : ∃ got left, got ++ left = payloads ∧
      (⟨.whole (.new recvKey sendKey recvPrefix sendPrefix), sender.wire, []⟩ :
        Receiver).Expects aead got left := by
    refine ⟨[], payloads, rfl, rfl, Or.inl PendingFrame.inHeader_default, ?_,
      SendOp.length_payload hsends, hsent.wire⟩
    show 0 + payloads.length ≤ maxCounter
    rw [zero_add]
    exact hcount
  obtain ⟨got, left, hpayloads, hreceiver⟩ :
      ∃ got left, got ++ left = payloads ∧ receiver.Expects aead got left :=
    Receiver.Expects.run hlaw hstart ops
  have hlength : receiver.returned.length = got.length := by
    rw [hreceiver.returned, List.length_map]
  have htake : payloads.take got.length = got := by
    rw [← hpayloads, List.take_left]
  refine ⟨hsent.results, ?_, ?_, ?_, ?_⟩
  · rw [hlength, htake]
    exact hreceiver.returned
  · intro hwire
    rw [hreceiver.left_eq_nil hlaw hwire, List.append_nil] at hpayloads
    rw [← hpayloads]
    exact hreceiver.returned
  · intro sizes hmore hall
    cases left with
    | nil =>
        rw [List.append_nil] at hpayloads
        rw [hlength, hpayloads] at hmore
        exact absurd hmore (lt_irrefl _)
    | cons p left =>
        rw [hreceiver.returned_next hlaw hall, hlength, ← hpayloads,
          show got ++ p :: left = (got ++ [p]) ++ left by rw [List.append_assoc]; rfl,
          show got.length + 1 = (got ++ [p]).length by rw [List.length_append]; rfl,
          List.take_left]
  · intro f wire header tail sizes hwaiting hsize hbad hstream
    exact PendingFrame.read_bad_header hwaiting hsize hbad hstream sizes

/-- Two frames, one of them empty, arriving in pieces that cut both headers and a body, with a split
in the middle of a frame. -/
theorem codec_round_trip_two_frames :
    (([.recv [1], .split, .recv [3, 6, 0], .recv [20, 20], .recv [2], .recv [30, 30]] :
        List RecvOp).foldl (Receiver.step .tagging)
      ⟨.whole (.new [2] [1] [8] [7]),
        (([.send [5, 6, 7] .completes, .split, .send [] .completes] : List SendOp).foldl
          (Sender.step .tagging) (.start (.new [1] [2] [7] [8]))).wire, []⟩).returned =
      [.ok [5, 6, 7], .ok []] := by
  have hclean : ∀ op ∈ ([.send [5, 6, 7] .completes, .split, .send [] .completes] : List SendOp),
      op.Clean := by
    simp only [List.forall_mem_cons, SendOp.Clean]
    exact ⟨⟨by decide, trivial⟩, trivial, ⟨by decide, trivial⟩, nofun⟩
  have h := codec_round_trip (Aead.tagging_lawful _) [1] [2] [7] [8] _ hclean (by decide)
    [.recv [1], .split, .recv [3, 6, 0], .recv [20, 20], .recv [2], .recv [30, 30]]
  exact h.2.2.1 (by decide)

end Synbad
