import Synbad.Lib.Run
import Synbad.Crypto.Cipher

/-! # Nonces

`send` encrypts first and moves the counter last, after its writes are done and only if the counter is
not at its limit. So a send that fails or is dropped after encrypting, and every send at the limit,
leaves its nonce to the next one. This file says exactly which sequences of sends encrypt two
different payloads under one nonce.

Which counter an operation finds is a count of the sends before it that complete (`counterAt`), and
what it encrypts is its payload under that counter, however it ends (`sendFrame_ciphertext`). So the
encryptions of a run are those of its operations (`mem_log_after`), and two of them share a nonce
exactly if their counters agree. `NonceSafe` says that in terms of the operations alone: between the
encryptions of two different payloads some send completes, and the counter has not reached its limit.
`nonces_unique_iff` is the equivalence, for every sequence of sends and splits. -/

namespace Synbad

/-! ## Which sends move the counter -/

namespace SendOp

/-- The operation is a send that encrypts, and its writes complete. -/
def completes : SendOp → Bool
  | .send payload .completes => payload.length ≤ maxFrameBytes
  | _ => false

end SendOp

/-- How many of the first `n` operations are sends that complete. -/
def completedBefore (ops : List SendOp) (n : ℕ) : ℕ := (ops.take n).countP SendOp.completes

/-- One more operation adds one to the count if it completes. -/
theorem completedBefore_succ {ops : List SendOp} {n : ℕ} {op : SendOp} (h : ops[n]? = some op) :
    completedBefore ops (n + 1) = completedBefore ops n + op.completes.toNat := by
  rw [completedBefore, completedBefore, List.take_add_one, h, Option.toList_some, List.countP_append,
    List.countP_singleton]
  cases op.completes <;> rfl

/-- Past the end of the operations the count stays. -/
theorem completedBefore_succ_none {ops : List SendOp} {n : ℕ} (h : ops[n]? = none) :
    completedBefore ops (n + 1) = completedBefore ops n := by
  rw [completedBefore, completedBefore, List.take_add_one, h, Option.toList_none, List.append_nil]

/-- Operation number `k` is a send that completes. -/
def CompletesAt (ops : List SendOp) (k : ℕ) : Prop :=
  ∃ op, ops[k]? = some op ∧ op.completes = true

/-- The count rises over a stretch exactly if an operation in it completes. -/
theorem completedBefore_lt_iff {ops : List SendOp} {i j : ℕ} (hij : i ≤ j) :
    completedBefore ops i < completedBefore ops j ↔ ∃ k, i ≤ k ∧ k < j ∧ CompletesAt ops k := by
  induction j, hij using Nat.le_induction with
  | base =>
      refine iff_of_false (lt_irrefl _) ?_
      rintro ⟨k, hik, hki, -⟩
      omega
  | succ j hij ih =>
      have hsplit : (∃ k, i ≤ k ∧ k < j + 1 ∧ CompletesAt ops k) ↔
          (∃ k, i ≤ k ∧ k < j ∧ CompletesAt ops k) ∨ CompletesAt ops j := by
        simp only [and_left_comm (a := i ≤ _)]
        rw [Nat.exists_lt_succ_right, and_iff_right hij]
      have hmono : completedBefore ops i ≤ completedBefore ops j :=
        List.Sublist.countP_le (List.take_sublist_take_left hij)
      -- The count goes up by one over operation `j` exactly if that completes.
      rw [hsplit, ← ih]
      cases hop : ops[j]? with
      | none =>
          rw [completedBefore_succ_none hop]
          have hno : ¬ CompletesAt ops j := by
            rintro ⟨op, h, -⟩
            rw [hop] at h
            cases h
          simp only [hno, or_false]
      | some op =>
          have hat : CompletesAt ops j ↔ op.completes = true := by
            constructor
            · rintro ⟨op', h, hc⟩
              rw [hop] at h
              cases h
              exact hc
            · exact fun hc => ⟨op, hop, hc⟩
          rw [completedBefore_succ hop, hat]
          cases op.completes
          · simp
          · simp
            omega

/-! ## The counter and the encryptions of a run -/

/-- The counter in use at operation `n`: one per completed send, up to the limit. -/
def counterAt (start : ℕ) (ops : List SendOp) (n : ℕ) : ℕ :=
  min (start + completedBefore ops n) maxCounter

/-- **What a send does to the counter**, however it ends. -/
theorem sendFrame_counter {aead : Aead} (hlaw : aead.Lawful maxFrameBytes) (key pre : Bytes)
    (counter : ℕ) (payload : Bytes) (fate : SendFate) :
    (sendFrame aead key pre counter payload fate).counter =
      if (SendOp.send payload fate).completes ∧ counter ≠ maxCounter then counter + 1
      else counter := by
  by_cases hsize : payload.length ≤ maxFrameBytes
  · obtain ⟨ct, hct, -⟩ := hlaw.encrypts key (buildNonce pre counter) payload hsize
    rw [sendFrame, if_neg (not_lt.mpr hsize), hct]
    cases fate with
    | completes =>
        by_cases hmax : counter = maxCounter <;> simp [SendOp.completes, hsize, hmax]
    | writeFails written e => simp [SendOp.completes]
    | dropped written => simp [SendOp.completes]
  · rw [sendFrame, if_pos (not_le.mp hsize), if_neg]
    rintro ⟨h, -⟩
    cases fate <;> simp [SendOp.completes, hsize] at h

/-- What a send encrypts, however it ends: its payload under the current counter, if its size is
admissible. -/
theorem sendFrame_ciphertext {aead : Aead} (key pre : Bytes) (counter : ℕ) (payload : Bytes)
    (fate : SendFate) :
    (sendFrame aead key pre counter payload fate).ciphertext =
      if payload.length ≤ maxFrameBytes then aead.encrypt key (buildNonce pre counter) payload
      else none := by
  by_cases hsize : payload.length ≤ maxFrameBytes
  · rw [sendFrame, if_neg (not_lt.mpr hsize), if_pos hsize]
    cases aead.encrypt key (buildNonce pre counter) payload with
    | none => rfl
    | some ct =>
        cases fate with
        | completes =>
            simp only []
            split <;> rfl
        | writeFails written e => rfl
        | dropped written => rfl
  · rw [sendFrame, if_pos (not_le.mp hsize), if_neg hsize]

namespace Sender

/-- The counter rises by one over an operation that completes, unless it is at its limit, and stays
over any other. -/
theorem counterAt_succ {ops : List SendOp} {start n : ℕ} {op : SendOp} (h : ops[n]? = some op) :
    counterAt start ops (n + 1) =
      if op.completes ∧ counterAt start ops n ≠ maxCounter then counterAt start ops n + 1
      else counterAt start ops n := by
  rw [counterAt, counterAt, completedBefore_succ h]
  cases op.completes with
  | false => simp
  | true =>
      simp only [Bool.toNat_true, true_and, ne_eq]
      split <;> omega

variable {aead : Aead} {s : CipherStream} (ops : List SendOp)

/-- **The state of a sending end** after any operations: only the counter has moved. -/
theorem joined_after (hlaw : aead.Lawful maxFrameBytes) (hs : s.sendCounter ≤ maxCounter) (n : ℕ) :
    (Run.after (Sender.step aead) (.start s) ops n).endpoint.joined =
      { s with sendCounter := counterAt s.sendCounter ops n } := by
  induction n with
  | zero =>
      have hzero : counterAt s.sendCounter ops 0 = s.sendCounter := by
        rw [counterAt, completedBefore, List.take_zero, List.countP_nil, Nat.add_zero,
          min_eq_left hs]
      rw [hzero]
      rfl
  | succ n ih =>
      cases hop : ops[n]? with
      | none =>
          rw [Run.after_succ_none hop, ih, counterAt, counterAt, completedBefore_succ_none hop]
      | some op =>
          rw [Run.after_succ hop, counterAt_succ hop]
          cases op with
          | split =>
              rw [if_neg (by simp [SendOp.completes])]
              exact (Endpoint.split_joined _).trans ih
          | send payload fate =>
              obtain ⟨hjoined, -⟩ := step_send aead _ payload fate ih rfl
              rw [hjoined, sendFrame_counter hlaw]

/-- `x` is the encryption made by operation `i`, under the counter that is in use there. -/
def EncryptedAt (aead : Aead) (s : CipherStream) (ops : List SendOp) (i : ℕ) (x : Encryption) :
    Prop :=
  ∃ payload fate ct, ops[i]? = some (.send payload fate) ∧ payload.length ≤ maxFrameBytes ∧
    aead.encrypt s.sendKey (buildNonce s.sendPrefix (counterAt s.sendCounter ops i)) payload =
      some ct ∧
    x = ⟨s.sendKey, buildNonce s.sendPrefix (counterAt s.sendCounter ops i), payload, ct⟩

/-- **The encryptions of a run** are those of its operations. -/
theorem mem_log_after (hlaw : aead.Lawful maxFrameBytes) (hs : s.sendCounter ≤ maxCounter) (n : ℕ)
    (x : Encryption) :
    x ∈ (Run.after (Sender.step aead) (.start s) ops n).log ↔
      ∃ i, i < n ∧ EncryptedAt aead s ops i x := by
  induction n with
  | zero =>
      refine iff_of_false List.not_mem_nil ?_
      rintro ⟨i, hi, -⟩
      exact Nat.not_lt_zero i hi
  | succ n ih =>
      rw [Nat.exists_lt_succ_right, ← ih]
      cases hop : ops[n]? with
      | none =>
          have hno : ¬ EncryptedAt aead s ops n x := by
            rintro ⟨payload, fate, ct, h, -⟩
            rw [hop] at h
            cases h
          rw [Run.after_succ_none hop]
          simp only [hno, or_false]
      | some op =>
          rw [Run.after_succ hop]
          cases op with
          | split =>
              have hno : ¬ EncryptedAt aead s ops n x := by
                rintro ⟨payload, fate, ct, h, -⟩
                rw [hop] at h
                cases h
              simp only [hno, or_false]
              rfl
          | send payload fate =>
              obtain ⟨-, -, -, hlog⟩ :=
                step_send aead _ payload fate (joined_after ops hlaw hs n) rfl
              rw [hlog, List.mem_append, sendFrame_ciphertext]
              refine or_congr Iff.rfl ?_
              -- what is appended is what operation `n` encrypts
              constructor
              · intro hx
                split at hx
                · next hsize =>
                  obtain ⟨ct, hct, rfl⟩ := Option.map_eq_some_iff.mp (Option.mem_toList.mp hx)
                  exact ⟨payload, fate, ct, hop, hsize, hct, rfl⟩
                · cases hx
              · rintro ⟨payload', fate', ct, h, hsize, hct, rfl⟩
                rw [hop] at h
                cases h
                rw [if_pos hsize, Option.mem_toList, hct]
                rfl

end Sender

/-! ## Nonce reuse -/

/-- No two different payloads are encrypted under one key and nonce. -/
def NoncesUnique (log : List Encryption) : Prop :=
  ∀ x ∈ log, ∀ y ∈ log, x.key = y.key → x.nonce = y.nonce → x.payload = y.payload

/-- **The condition for unique nonces.** Between the encryptions of two different payloads some send
completes, the first of the two counting, and it does so before the counter has reached its limit. -/
def NonceSafe (start : ℕ) (ops : List SendOp) : Prop :=
  ∀ i j p q f g, i < j → ops[i]? = some (.send p f) → ops[j]? = some (.send q g) →
    p.length ≤ maxFrameBytes → q.length ≤ maxFrameBytes → p ≠ q →
    (∃ k, i ≤ k ∧ k < j ∧ CompletesAt ops k) ∧ start + completedBefore ops i < maxCounter

/-- Two positions share a counter unless a send completes in between, below the limit. -/
theorem counterAt_ne_iff {start : ℕ} {ops : List SendOp} {i j : ℕ} (hij : i ≤ j) :
    counterAt start ops i ≠ counterAt start ops j ↔
      (∃ k, i ≤ k ∧ k < j ∧ CompletesAt ops k) ∧ start + completedBefore ops i < maxCounter := by
  have hmono : completedBefore ops i ≤ completedBefore ops j :=
    List.Sublist.countP_le (List.take_sublist_take_left hij)
  rw [← completedBefore_lt_iff hij, counterAt, counterAt]
  omega

/-- **Nonces are unique exactly when** the condition holds: for every sequence of sends, with any of
their writes failing or futures dropped after the encryption, on the stream or on its write half,
from every starting counter. -/
theorem nonces_unique_iff {aead : Aead} (hlaw : aead.Lawful maxFrameBytes) (s : CipherStream)
    (hs : s.sendCounter ≤ maxCounter) (ops : List SendOp) :
    NoncesUnique (ops.foldl (Sender.step aead) (.start s)).log ↔ NonceSafe s.sendCounter ops := by
  have hlog := fun x => Sender.mem_log_after ops hlaw hs ops.length x
  rw [Run.after_length] at hlog
  have hrange : ∀ i, counterAt s.sendCounter ops i ≤ maxCounter := fun i => min_le_right _ _
  constructor
  · -- Operations that share a counter would both be in the log under one nonce.
    intro hunique i j p q f g hij hi hj hp hq hne
    rw [← counterAt_ne_iff hij.le]
    intro hsame
    obtain ⟨ct, hct, -⟩ := hlaw.encrypts s.sendKey
      (buildNonce s.sendPrefix (counterAt s.sendCounter ops i)) p hp
    obtain ⟨ct', hct', -⟩ := hlaw.encrypts s.sendKey
      (buildNonce s.sendPrefix (counterAt s.sendCounter ops j)) q hq
    have hx := (hlog _).mpr ⟨i, (List.getElem?_eq_some_iff.mp hi).1, p, f, ct, hi, hp, hct, rfl⟩
    have hy := (hlog _).mpr ⟨j, (List.getElem?_eq_some_iff.mp hj).1, q, g, ct', hj, hq, hct', rfl⟩
    refine hne (hunique _ hx _ hy rfl ?_)
    show buildNonce s.sendPrefix (counterAt s.sendCounter ops i) =
      buildNonce s.sendPrefix (counterAt s.sendCounter ops j)
    rw [hsame]
  · intro hsafe x hx y hy _ hnonce
    obtain ⟨i, -, p, f, ct, hi, hp, -, rfl⟩ := (hlog x).mp hx
    obtain ⟨j, -, q, g, ct', hj, hq, -, rfl⟩ := (hlog y).mp hy
    -- Counters are below `2^64`, so one nonce means one counter.
    have hsame := buildNonce_inj (hrange i) (hrange j) hnonce
    show p = q
    by_contra hne
    rcases lt_trichotomy i j with hij | rfl | hji
    · exact (counterAt_ne_iff hij.le).mpr (hsafe i j p q f g hij hi hj hp hq hne) hsame
    · rw [hi] at hj
      cases hj
      exact hne rfl
    · exact (counterAt_ne_iff hji.le).mpr (hsafe j i q p g f hji hj hi hq hp (Ne.symm hne)) hsame.symm

/-- A send dropped after encrypting and a different one after it share nonce zero. -/
theorem dropped_send_reuses_nonce :
    ¬ NoncesUnique (([.send [1] (.dropped 0), .send [2] .completes] : List SendOp).foldl
      (Sender.step .tagging) (.start (.new [1] [2] [7] [8]))).log := by
  intro h
  have hsame := h _ List.mem_cons_self _ (List.mem_cons_of_mem _ List.mem_cons_self) rfl rfl
  exact absurd hsame (by decide)

/-- Two sends of different payloads that complete do not share a nonce. -/
theorem nonces_unique_iff_two_sends :
    NoncesUnique (([.send [1] .completes, .send [2] .completes] : List SendOp).foldl
      (Sender.step .tagging) (.start (.new [1] [2] [7] [8]))).log := by
  refine (nonces_unique_iff (Aead.tagging_lawful _) (.new [1] [2] [7] [8]) (Nat.zero_le _) _).mpr ?_
  intro i j p q f g hij hi hj _ _ _
  have hbound : j < 2 := (List.getElem?_eq_some_iff.mp hj).1
  obtain rfl : i = 0 := by omega
  exact ⟨⟨0, le_rfl, hij, _, rfl, rfl⟩, by decide⟩

end Synbad
