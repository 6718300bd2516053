import Synbad.Crypto.Agreement
import Synbad.Crypto.Channel
import Synbad.Crypto.Script

/-! # Completion

Two calls whose bytes reach each other unaltered, among any number of others: neither fails, and once
everything that was written has been read both have returned, each with the identity of the other and
with mirrored keys. Together with agreement this is what the handshake is for.

Of the two sessions it is said what they were called with (`Suits`), that their bytes come unaltered,
in whatever pieces and however late (`Unaltered`), and that no read or write of theirs fails. Then
each keeps to its script (`goes_step`), whatever the sessions beside them do, and `completes_after`
says what that means at the end. `handshake_agreement` puts it together with agreement: the one holds
against any adversary, the other as soon as it lets two calls alone.

The second part runs a handshake of two machines with stand-ins for the primitives, over a network
that forwards everything, to show that the assumptions can be met. -/

namespace Synbad

open Bytes (Arr)

namespace Network

variable {ops : Primitives} {M : Type} {fleet : Fleet ops M} {w : Network M} {id : ℕ}

/-! ## One session of a network -/

/-- What a move does to the session number `id`. -/
inductive Moved (fleet : Fleet ops M) (w w' : Network M) (id : ℕ) : Prop
  | none (same : w'.sessions[id]? = w.sessions[id]?)
  | start (m : M) (call : Call) (authenticated : Bool) (ephemeral : Arr 32) (nonce : Arr 16)
      (fate : SendFate) (before : w.sessions[id]? = Option.none)
      (after : w'.sessions[id]? =
        some (m, Session.start ops call (fleet.mode m authenticated) ephemeral nonce fate))
  | deliver (m : M) (s : Session) (bytes : Bytes) (before : w.sessions[id]? = some (m, s))
      (after : w'.sessions[id]? = some (m, s.deliver bytes))
  | poll (m : M) (s : Session) (events : List ReadEvent) (fate : SendFate)
      (before : w.sessions[id]? = some (m, s))
      (after : w'.sessions[id]? = some (m, (s.poll ops (fleet.verify w.log) id events fate).1))
      (log : w'.log = w.log ++ (s.poll ops (fleet.verify w.log) id events fate).2)

/-- Every move moves every session in one of these ways, and forgets no signature. -/
theorem step_moved (fleet : Fleet ops M) (w : Network M) (move : Move M) (id : ℕ) :
    w.log ⊆ (w.step fleet move).log ∧ Moved fleet w (w.step fleet move) id := by
  cases move with
  | start m call authenticated ephemeral nonce fate =>
      refine ⟨fun _ he => he, ?_⟩
      -- a session that is there already is not this one, and a new one comes last
      by_cases hlt : id < w.sessions.length
      · exact .none (List.getElem?_append_left hlt)
      · have hle := not_lt.mp hlt
        by_cases heq : id = w.sessions.length
        · refine .start m call authenticated ephemeral nonce fate (List.getElem?_eq_none hle) ?_
          rw [heq]
          exact List.getElem?_concat_length
        · refine .none ?_
          rw [List.getElem?_eq_none hle]
          refine List.getElem?_eq_none ?_
          simp only [Network.step, List.length_append, List.length_singleton]
          omega
  | deliver j bytes =>
      simp only [Network.step]
      cases hj : w.sessions[j]? with
      | none => exact ⟨fun _ he => he, .none rfl⟩
      | some q =>
          -- bytes for another session are nothing to this one
          refine ⟨fun _ he => he, ?_⟩
          by_cases hid : id = j
          · subst hid
            exact .deliver q.1 q.2 bytes hj
              (List.getElem?_set_self (List.getElem?_eq_some_iff.mp hj).1)
          · exact .none (List.getElem?_set_ne (Ne.symm hid))
  | poll j events fate =>
      simp only [Network.step]
      cases hj : w.sessions[j]? with
      | none => exact ⟨fun _ he => he, .none rfl⟩
      | some q =>
          refine ⟨List.subset_append_left _ _, ?_⟩
          by_cases hid : id = j
          · subst hid
            exact .poll q.1 q.2 events fate hj
              (List.getElem?_set_self (List.getElem?_eq_some_iff.mp hj).1) rfl
          · exact .none (List.getElem?_set_ne (Ne.symm hid))

/-- Session `id`, if there is one, was called with these arguments and is not marked. -/
def Uncut (σ : Script) (w : Network M) (id : ℕ) : Prop :=
  ∀ q, w.sessions[id]? = some q → q.2.args = σ.args ∧ q.2.cut = false

/-- Session `id`, if there is one, goes by the script. -/
def Goes (σ : Script) (w : Network M) (id : ℕ) : Prop :=
  ∀ q, w.sessions[id]? = some q → σ.Follows w.log q.2

variable {σ : Script} {w' : Network M}

/-- A session that is not marked was not marked before. -/
theorem Uncut.before (h : Uncut σ w' id) (hmoved : Moved fleet w w' id) : Uncut σ w id := by
  intro q hq
  cases hmoved with
  | none same => exact h q (same.trans hq)
  | start m call authenticated ephemeral nonce fate before after =>
      rw [before] at hq
      cases hq
  | deliver m s bytes before after =>
      rw [before] at hq
      cases hq
      obtain ⟨hargs, hcut⟩ := h _ after
      exact ⟨hargs, hcut⟩
  | poll m s events fate before after log =>
      rw [before] at hq
      cases hq
      obtain ⟨hargs, hcut⟩ := h _ after
      exact ⟨(s.poll_args events fate).symm.trans hargs, (Session.poll_cut hcut).1⟩

/-- **A script is kept to** if it is at the start and at every clean poll. -/
theorem Goes.next (h : Goes σ w id) (huncut : Uncut σ w' id) (hlog : w.log ⊆ w'.log)
    (hmoved : Moved fleet w w' id)
    (hstart : ∀ call mode ephemeral nonce fate,
      (Session.start ops call mode ephemeral nonce fate).args = σ.args →
      (Session.start ops call mode ephemeral nonce fate).cut = false →
      σ.Follows w'.log (Session.start ops call mode ephemeral nonce fate))
    (hpoll : ∀ q events fate, w.sessions[id]? = some q → clean events fate = true →
      σ.Follows (w.log ++ (q.2.poll ops (fleet.verify w.log) id events fate).2)
        (q.2.poll ops (fleet.verify w.log) id events fate).1) : Goes σ w' id := by
  intro q hq
  obtain ⟨hargs, hcut⟩ := huncut q hq
  -- An unmarked session has only had clean polls, or polls after its end that change nothing.
  cases hmoved with
  | none same => exact (h q (same.symm.trans hq)).mono hlog
  | start m call authenticated ephemeral nonce fate before after =>
      rw [after] at hq
      cases hq
      exact hstart _ _ _ _ _ hargs hcut
  | deliver m s bytes before after =>
      rw [after] at hq
      cases hq
      exact ((h _ before).mono hlog).deliver bytes
  | poll m s events fate before after log =>
      rw [after] at hq
      cases hq
      rcases (Session.poll_cut hcut).2 with hidle | hclean
      · rw [hidle]
        exact (h _ before).mono hlog
      · rw [log]
        exact hpoll _ events fate before hclean

/-! ## Two sessions whose bytes reach each other unaltered -/

/-- What session `id` has written, and nothing if there is no such session. -/
def writtenBy (w : Network M) (id : ℕ) : Bytes := (w.sessions[id]?.map (·.2.written)).getD []

/-- What has been put into the socket of session `id`. -/
def fedTo (w : Network M) (id : ℕ) : Bytes := (w.sessions[id]?.map (·.2.fed)).getD []

/-- The bytes that have reached each of the two sessions are, in order, the first of those the other
has written. -/
def Unaltered (w : Network M) (i j : ℕ) : Prop :=
  w.fedTo i <+: w.writtenBy j ∧ w.fedTo j <+: w.writtenBy i

/-- What a session that is there has written. -/
theorem writtenBy_eq {q : M × Session} (h : w.sessions[id]? = some q) :
    w.writtenBy id = q.2.written := by
  rw [writtenBy, h]
  rfl

/-- What has been put into the socket of a session that is there. -/
theorem fedTo_eq {q : M × Session} (h : w.sessions[id]? = some q) : w.fedTo id = q.2.fed := by
  rw [fedTo, h]
  rfl

/-- The other end of a session has written only what the session is to read, and has signed if it has
written all of it. -/
theorem Goes.source {j : ℕ} {fed : Bytes} (h : Goes σ w j) (reads : Bytes) (hdone : σ.atDone = reads)
    (hwritten : ∀ s, σ.At s → s.written <+: reads) (hne : reads ≠ []) (hfed : fed <+: w.writtenBy j) :
    fed <+: reads ∧
      (fed = reads → ∃ e ∈ w.log, e.key = σ.ownKey ∧ e.message = σ.transcript) := by
  cases hj : w.sessions[j]? with
  | none =>
      rw [writtenBy, hj] at hfed
      have hnil : fed = [] := List.prefix_nil.mp hfed
      refine ⟨hnil ▸ List.nil_prefix, fun hall => absurd (hall.symm.trans hnil) hne⟩
  | some q =>
      rw [writtenBy_eq hj] at hfed
      have hq := h q hj
      refine ⟨hfed.trans (hwritten _ hq.place), fun hall => hq.signed ?_⟩
      rw [hdone]
      rw [hall] at hfed
      exact (hwritten _ hq.place).eq_of_length_le hfed.length_le

variable {p : Meeting M} {i j : ℕ}

/-- **Both scripts are kept to** by a move, if the bytes have come unaltered. -/
theorem goes_step (hlaw : ops.Lawful) (hp : p.Suits fleet) (hunaltered : w.Unaltered i j)
    (hI : Goes (p.initiator fleet) w i) (hR : Goes (p.acceptor fleet) w j) (move : Move M)
    (hcutI : Uncut (p.initiator fleet) (w.step fleet move) i)
    (hcutR : Uncut (p.acceptor fleet) (w.step fleet move) j) :
    Goes (p.initiator fleet) (w.step fleet move) i ∧
      Goes (p.acceptor fleet) (w.step fleet move) j := by
  obtain ⟨hlog, hmovedI⟩ := step_moved fleet w move i
  obtain ⟨-, hmovedR⟩ := step_moved fleet w move j
  obtain ⟨hfedI, hfedR⟩ := hunaltered
  have hnonempty : ∀ {n : ℕ} (hello : Arr (n + 1)) (frame : Bytes), hello.val ++ frame ≠ [] := by
    intro n hello frame hnil
    have hlength := hello.length_val
    rw [(List.append_eq_nil_iff.mp hnil).1] at hlength
    cases hlength
  -- Each session reads what the other, by its own script, has written before this move.
  constructor
  · refine hI.next hcutI hlog hmovedI (fun _ _ _ _ _ hargs hcut => Meeting.initiator_start hargs hcut)
      fun q events fate hq hclean => ?_
    rw [fedTo_eq hq] at hfedI
    obtain ⟨hcomes, hsigned⟩ := hR.source (p.initiator fleet).reads rfl
      (fun _ => Meeting.acceptor_written) (hnonempty _ _) hfedI
    exact Meeting.initiator_poll hlaw hp (hI q hq) hcomes hsigned hclean
  · refine hR.next hcutR hlog hmovedR (fun _ _ _ _ _ hargs _ => Meeting.acceptor_start hargs)
      fun q events fate hq hclean => ?_
    rw [fedTo_eq hq] at hfedR
    obtain ⟨hcomes, hsigned⟩ := hI.source (p.acceptor fleet).reads rfl
      (fun _ => Meeting.initiator_written) (hnonempty _ _) hfedR
    exact Meeting.acceptor_poll hlaw hp (hR q hq) hcomes hsigned hclean

/-- Before anybody has started a session it goes as scripted. -/
theorem goes_empty : Goes σ (Network.empty : Network M) id := by
  intro q hq
  rw [Network.empty, List.getElem?_nil] at hq
  cases hq

/-- Along a run in which the bytes come unaltered, both scripts are kept to. -/
theorem goes_after (hlaw : ops.Lawful) (hp : p.Suits fleet) {moves : List (Move M)}
    (hunaltered : ∀ k, (Run.after (Network.step fleet) Network.empty moves k).Unaltered i j) (n : ℕ)
    (hcutI : Uncut (p.initiator fleet) (Run.after (Network.step fleet) Network.empty moves n) i)
    (hcutR : Uncut (p.acceptor fleet) (Run.after (Network.step fleet) Network.empty moves n) j) :
    Goes (p.initiator fleet) (Run.after (Network.step fleet) Network.empty moves n) i ∧
      Goes (p.acceptor fleet) (Run.after (Network.step fleet) Network.empty moves n) j := by
  -- The marks only ever appear, so unmarked now is unmarked at every step before.
  revert hcutI hcutR
  refine Run.invariant (P := fun w => Uncut (p.initiator fleet) w i →
    Uncut (p.acceptor fleet) w j → Goes (p.initiator fleet) w i ∧ Goes (p.acceptor fleet) w j)
    (fun _ _ => ⟨goes_empty, goes_empty⟩) ?_ n
  intro k move _ ih hcutI hcutR
  obtain ⟨hI, hR⟩ := ih (hcutI.before (step_moved fleet _ move i).2)
    (hcutR.before (step_moved fleet _ move j).2)
  exact goes_step hlaw hp (hunaltered k) hI hR move hcutI hcutR

/-- What becomes of two calls, one of each function, of which each accepts the identity of the machine
that made the other, and to which no read or write has failed: neither has failed, and if each has
read all that the other has written both are done, with the identity of the other, one transcript
and mirrored keys. -/
def Completes (fleet : Fleet ops M) (w : Network M) (i j : ℕ) : Prop :=
  ∀ a b s s', w.sessions[i]? = some (a, s) → w.sessions[j]? = some (b, s') →
    s.call.isInitiate = true → s'.call.isInitiate = false →
    s.mode = fleet.mode a true → s'.mode = fleet.mode b true →
    s.call.check (fleet.machineId b) (fleet.publicKey b) = .ok () →
    s'.call.check (fleet.machineId a) (fleet.publicKey a) = .ok () →
    s.cut = false → s'.cut = false →
    (∀ e, s.stage ≠ .failed e) ∧ (∀ e, s'.stage ≠ .failed e) ∧
      (s.fed = s'.written → s'.fed = s.written → s.socket = [] → s'.socket = [] →
        ∃ cipher cipher' transcript,
          s.stage = .done cipher transcript
            (.authenticated (fleet.machineId b) (fleet.publicKey b)) ∧
          s'.stage = .done cipher' transcript
            (.authenticated (fleet.machineId a) (fleet.publicKey a)) ∧
          cipher.Mirrors cipher')

/-- **Unaltered calls complete**: in every state of a run that hands the bytes of two suiting calls
over unaltered, what `Completes` says of them holds. -/
theorem completes_after (hlaw : ops.Lawful) {moves : List (Move M)}
    (hunaltered : ∀ k, (Run.after (Network.step fleet) Network.empty moves k).Unaltered i j) (n : ℕ) :
    (Run.after (Network.step fleet) Network.empty moves n).Completes fleet i j := by
  intro a b s s' hs hs' hinit hacc hmode hmode' hcheck hcheck' hcut hcut'
  cases hcall : s.call with
  | accept resolvePubkey =>
      rw [hcall] at hinit
      cases hinit
  | initiate expectedPeer =>
      cases hcall' : s'.call with
      | initiate expectedPeer' =>
          rw [hcall'] at hacc
          cases hacc
      | accept resolvePubkey =>
          rw [hcall] at hcheck
          rw [hcall'] at hcheck'
          obtain ⟨ctI, ctR, hp⟩ := Meeting.exists_suits hlaw
            ⟨a, b, expectedPeer, resolvePubkey, s.ephemeral, s.nonce, s'.ephemeral, s'.nonce, [], []⟩
            hcheck hcheck'
          -- the meeting of these two calls
          generalize hmeeting : ({ a := a, b := b, .. } : Meeting M) = p at hp
          have hargs : s.args = (p.initiator fleet).args := by
            rw [← hmeeting, Session.args, hcall, hmode]
            rfl
          have hargs' : s'.args = (p.acceptor fleet).args := by
            rw [← hmeeting, Session.args, hcall', hmode']
            rfl
          obtain ⟨hI, hR⟩ := goes_after hlaw hp hunaltered n
            (fun q hq => by rw [hs] at hq; cases hq; exact ⟨hargs, hcut⟩)
            (fun q hq => by rw [hs'] at hq; cases hq; exact ⟨hargs', hcut'⟩)
          have hplace := (hI _ hs).place
          have hplace' := (hR _ hs').place
          refine ⟨hplace.not_failed, hplace'.not_failed, fun hfed hfed' hsocket hsocket' => ?_⟩
          obtain ⟨⟨c, hstage, hkeys⟩, c', hstage', hkeys'⟩ :=
            Meeting.done_of_settled hp hplace hplace' hfed hfed' hsocket hsocket'
          obtain ⟨htranscript, hmirror⟩ := Meeting.keys_mirror hlaw p
          subst hmeeting
          refine ⟨c, c', _, hstage, ?_, ?_⟩
          · rw [htranscript]
            exact hstage'
          · exact ((hmirror.of_same hkeys).symm.of_same hkeys').symm

end Network

/-- **Authenticated handshake agreement.** In every state that any number of concurrent calls of
honest machines can reach on a network the adversary controls, with fresh ephemeral keys and no
collision among the transcripts they hashed: what `accept` returns is known to its resolver, what
`initiate` returns is what it expected, and if the returned key is that of another honest machine
then that machine ran the other function with the same hellos, signed this transcript and derived
mirrored keys; and two calls whose bytes reach each other unaltered never fail, and have both
returned once they have read everything. -/
theorem handshake_agreement {ops : Primitives} (hlaw : ops.Lawful) {M : Type} (fleet : Fleet ops M)
    (moves : List (Move M)) (n : ℕ)
    (hfresh : (Run.after (Network.step fleet) Network.empty moves n).Fresh ops)
    (hsha : (Run.after (Network.step fleet) Network.empty moves n).CollisionFree ops) :
    (Run.after (Network.step fleet) Network.empty moves n).AcceptAgrees fleet ∧
      (Run.after (Network.step fleet) Network.empty moves n).InitiateAgrees fleet ∧
      ∀ i j, (∀ k, (Run.after (Network.step fleet) Network.empty moves k).Unaltered i j) →
        (Run.after (Network.step fleet) Network.empty moves n).Completes fleet i j := by
  have hinv : (Run.after (Network.step fleet) Network.empty moves n).Inv fleet :=
    Run.invariant Network.Inv.empty (fun _ move _ h => h.step move) n
  refine ⟨hinv.acceptAgrees hlaw.diffieHellman_comm hfresh hsha,
    hinv.initiateAgrees hlaw.diffieHellman_comm hfresh hsha, fun i j hunaltered => ?_⟩
  exact Network.completes_after hlaw hunaltered n

/-! ## Two machines -/

namespace Sample

/-- A string of bytes cut or filled with zeros. -/
def pad (n : ℕ) (bs : Bytes) : Arr n := ⟨(bs ++ List.replicate n 0).take n, by simp⟩

/-- The JSON text of an auth frame whose texts need no escapes. -/
def writeJson (f : AuthFrame) : Bytes :=
  ascii "\x7b\"machine_id\":\"" ++ (ascii f.machineId ++ (ascii "\",\"ed25519_pub_hex\":\"" ++
    (ascii f.ed25519PubHex ++ (ascii "\",\"sig_hex\":\"" ++ (ascii f.sigHex ++ ascii "\"\x7d")))))

/-- The bytes up to the next quotation mark, or all of them. -/
def untilQuote (bs : Bytes) : Bytes := bs.takeWhile (· ≠ 34)

/-- Bytes as a text, with one character for each of them. -/
def text (bs : Bytes) : String := String.ofList (bs.map fun b => Char.ofNat b.toNat)

/-- The auth frame of such a text: the three texts are found by the fixed lengths of what stands
between them. -/
def readJson (bs : Bytes) : Except String AuthFrame :=
  let machineId := untilQuote (bs.drop 15)
  let pub := untilQuote (((bs.drop 15).drop machineId.length).drop 21)
  let sig := untilQuote (((((bs.drop 15).drop machineId.length).drop 21).drop pub.length).drop 13)
  .ok ⟨text machineId, text pub, text sig⟩

/-- Stand-in primitives that hide nothing, to run the model with. -/
def ops : Primitives where
  publicKey sk := sk
  diffieHellman a b := ⟨List.zipWith (· ^^^ ·) a.val b.val, by simp⟩
  sha256 bs := pad 32 (bs.drop 18)
  hkdf salt secret info := pad 72 (salt ++ secret ++ info)
  verifyingKey sk := sk
  onCurve _ := true
  sign sk message := pad 64 (sk.val ++ message)
  verify pk message sig := sig = pad 64 (pk.val ++ message)
  aead := Aead.tagging
  toJson f := .ok (writeJson f)
  fromJson := readJson
  hex := .standard

/-- Plain characters are ASCII and no quotation mark, so a plain text needs no escape. -/
theorem plain_toNat {c : Char} (h : c.isAlphanum = true ∨ c = '-') :
    c.toNat < 128 ∧ c.toNat ≠ 34 := by
  rcases h with h | rfl
  · have hrange := Bytes.alphanum_toNat h
    omega
  · decide

/-- A plain text ends where the quotation mark is. -/
theorem untilQuote_ascii {s : String} (h : Bytes.Plain s) (rest : Bytes) :
    untilQuote (ascii s ++ 34 :: rest) = ascii s := by
  have hne : ∀ b ∈ ascii s, decide (b ≠ 34) = true := by
    intro b hb
    obtain ⟨c, hc, rfl⟩ := List.mem_map.mp hb
    obtain ⟨hlt, hquote⟩ := plain_toNat (h c hc)
    rw [decide_eq_true_eq, Ne, ← UInt8.toNat_inj, UInt8.toNat_ofNat']
    show ¬ c.toNat % 256 = 34
    omega
  rw [untilQuote, List.takeWhile_append_of_pos hne]
  simp

/-- A plain text is read back from its bytes. -/
theorem text_ascii {s : String} (h : Bytes.Plain s) : text (ascii s) = s := by
  have hback : ∀ c ∈ s.toList,
      ((fun b : UInt8 => Char.ofNat b.toNat) ∘ fun c : Char => UInt8.ofNat c.toNat) c = id c := by
    intro c hc
    obtain ⟨hlt, -⟩ := plain_toNat (h c hc)
    show Char.ofNat (UInt8.ofNat c.toNat).toNat = c
    rw [UInt8.toNat_ofNat', Nat.mod_eq_of_lt (by omega), Char.ofNat_toNat]
  rw [text, ascii, List.map_map, List.map_congr_left hback, List.map_id, String.ofList_toList]

/-- Plain frames are read back as they were written. -/
theorem readJson_writeJson {f : AuthFrame} (hid : Bytes.Plain f.machineId)
    (hpub : Bytes.Plain f.ed25519PubHex) (hsig : Bytes.Plain f.sigHex) :
    readJson (writeJson f) = .ok f := by
  have h1 : ∀ rest, ascii "\",\"ed25519_pub_hex\":\"" ++ rest =
      34 :: (ascii ",\"ed25519_pub_hex\":\"" ++ rest) := fun _ => rfl
  have h2 : ∀ rest, ascii "\",\"sig_hex\":\"" ++ rest = 34 :: (ascii ",\"sig_hex\":\"" ++ rest) :=
    fun _ => rfl
  have h3 : ascii "\"\x7d" = 34 :: ascii "\x7d" := rfl
  simp only [readJson, writeJson]
  rw [List.drop_left' (by decide), h1, untilQuote_ascii hid, List.drop_left, ← h1,
    List.drop_left' (by decide), h2, untilQuote_ascii hpub, List.drop_left, ← h2,
    List.drop_left' (by decide), h3, untilQuote_ascii hsig, text_ascii hid, text_ascii hpub,
    text_ascii hsig]

/-- The stand-ins behave as the handshake relies on, so an example can be run with them. -/
theorem ops_lawful : ops.Lawful where
  diffieHellman_comm a b := Subtype.ext (List.zipWith_comm_of_comm UInt8.xor_comm)
  onCurve _ := rfl
  verify_sign sk message := decide_eq_true rfl
  aead := Aead.tagging_lawful maxFrameBytes
  json f hid hpub hsig := by
    refine ⟨writeJson f, rfl, readJson_writeJson hid hpub hsig, ?_⟩
    have h1 : (ascii "\x7b\"machine_id\":\"").length = 15 := by decide
    have h2 : (ascii "\",\"ed25519_pub_hex\":\"").length = 21 := by decide
    have h3 : (ascii "\",\"sig_hex\":\"").length = 13 := by decide
    have h4 : (ascii "\"\x7d").length = 2 := by decide
    have hlength : ∀ s : String, (ascii s).length = s.length := by
      intro s
      rw [ascii, List.length_map, String.length_toList]
    simp only [writeJson, List.length_append, h1, h2, h3, h4]
    simp only [hlength]
    omega

/-- Two machines, each with an id and a signing key of its own. -/
def fleet : Fleet ops Bool where
  machineId m :=
    if m then "00000000-0000-4000-8000-00000000000a" else "00000000-0000-4000-8000-00000000000b"
  signingKey m := pad 32 (if m then [1] else [2])
  owner pk := if pk = pad 32 [1] then some true else if pk = pad 32 [2] then some false else none
  owner_iff pk m := by
    have hne : pad 32 [1] ≠ pad 32 [2] := by decide
    constructor
    · intro h
      split at h
      · next hpk =>
        cases h
        exact hpk.symm
      split at h
      · next hpk =>
        cases h
        exact hpk.symm
      · cases h
    · rintro rfl
      cases m
      · exact (if_neg hne.symm).trans (if_pos rfl)
      · exact if_pos rfl
  uuid m := by
    have hplain : ∀ s : String, (s.toList.all fun c => c.isAlphanum || c == '-') = true →
        Bytes.Plain s := by
      intro s hs c hc
      simpa using List.all_eq_true.mp hs c hc
    cases m
    · exact ⟨by decide, hplain _ rfl⟩
    · exact ⟨by decide, hplain _ rfl⟩

/-- What a network does next, by the state it is in. -/
abbrev Next := Network Bool → Move Bool

/-- Forward to session `j` what session `i` has written since. -/
def relay (i j : ℕ) : Next := fun w => .deliver j ((w.writtenBy i).drop (w.fedTo j).length)

/-- Poll a session, whose bytes come in two pieces. -/
def poll (id : ℕ) : Next := fun _ => .poll id [.data 9, .data 999] .completes

/-- The moves that these make, each chosen in the state the ones before it have led to. -/
def moves : Network Bool → List Next → List (Move Bool)
  | _, [] => []
  | w, next :: rest => next w :: moves (w.step fleet (next w)) rest

/-- A handshake of the two machines over a network that forwards everything. -/
def handshake : List (Move Bool) :=
  moves Network.empty
    [fun _ => .start true (.initiate (some (fleet.machineId false, fleet.publicKey false))) true
        (pad 32 [3]) (pad 16 [5]) .completes,
      fun _ => .start false
        (.accept fun machineId =>
          if machineId = fleet.machineId true then some (fleet.publicKey true) else none) true
        (pad 32 [4]) (pad 16 [6]) .completes,
      relay 0 1, poll 1, relay 1 0, poll 0, relay 0 1, poll 1, relay 1 0, poll 0]

/-- Whom the sessions of a network have accepted, and nobody where a session is not done. -/
def accepted (w : Network Bool) : List (Option PeerAuth) :=
  w.sessions.map fun q =>
    match q.2.stage with
    | .done _ _ peer => some peer
    | _ => none

/-- The network forwards everything as it is, at every moment, the ephemeral keys differ, the one
transcript collides with nothing, and both machines accept each other. -/
theorem handshake_facts :
    (∀ k ≤ 10, (Run.after (Network.step fleet) Network.empty handshake k).Unaltered 0 1) ∧
      (Run.after (Network.step fleet) Network.empty handshake 10).Fresh ops ∧
      (Run.after (Network.step fleet) Network.empty handshake 10).CollisionFree ops ∧
      accepted (Run.after (Network.step fleet) Network.empty handshake 10) =
        [some (.authenticated (fleet.machineId false) (fleet.publicKey false)),
          some (.authenticated (fleet.machineId true) (fleet.publicKey true))] := by
  unfold Network.Unaltered Network.Fresh Network.CollisionFree
  decide +kernel

/-- The bytes of the handshake come unaltered in every state, also past its last move, where nothing
changes any more. -/
theorem handshake_unaltered (k : ℕ) :
    (Run.after (Network.step fleet) Network.empty handshake k).Unaltered 0 1 := by
  by_cases hk : k ≤ 10
  · exact handshake_facts.1 k hk
  · have hlength : handshake.length = 10 := rfl
    have hend := handshake_facts.1 10 le_rfl
    rw [Run.after, List.take_of_length_le (by omega)] at hend ⊢
    exact hend

end Sample

/-- Two machines authenticate each other over a network that forwards everything. -/
theorem handshake_agreement_two_machines :
    Sample.accepted (Run.after (Network.step Sample.fleet) Network.empty Sample.handshake 10) =
        [some (.authenticated (Sample.fleet.machineId false) (Sample.fleet.publicKey false)),
          some (.authenticated (Sample.fleet.machineId true) (Sample.fleet.publicKey true))] ∧
      (Run.after (Network.step Sample.fleet) Network.empty Sample.handshake 10).AcceptAgrees
        Sample.fleet ∧
      (Run.after (Network.step Sample.fleet) Network.empty Sample.handshake 10).InitiateAgrees
        Sample.fleet ∧
      (Run.after (Network.step Sample.fleet) Network.empty Sample.handshake 10).Completes
        Sample.fleet 0 1 := by
  obtain ⟨-, hfresh, hsha, haccepted⟩ := Sample.handshake_facts
  obtain ⟨haccept, hinitiate, hcompletes⟩ :=
    handshake_agreement Sample.ops_lawful Sample.fleet Sample.handshake 10 hfresh hsha
  exact ⟨haccepted, haccept, hinitiate, hcompletes 0 1 Sample.handshake_unaltered⟩

end Synbad
