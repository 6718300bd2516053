import Synbad.Crypto.Sessions

/-! # Agreement

The invariant of all concurrent handshakes, and what it gives: a call that has authenticated the key
of an honest machine was run against a call of that machine, in the other role, with the same hellos
and mirrored keys. Since a signature says nothing about the role it was made in, the argument is one
about ephemeral keys: a transcript signed in the same role would carry the signer's ephemeral key in
the place of the verifier's.

`Inv` is of every session, and says of every signature which session made it; a move keeps it
(`Inv.step`). `Fresh` is the assumption that honest calls draw different ephemeral keys, and
`CollisionFree` that no two of the transcripts they hashed have the same hash. Under these
`Inv.peerRan` finds the other end of a handshake, and from it follows what each of the two functions
returns (`Inv.acceptAgrees`, `Inv.initiateAgrees`). It holds against an adversary that decides what
every call reads, at every moment of the run. -/

namespace Synbad

open Bytes (Arr)

/-- The call is one of `initiate`, not of `accept`. -/
def Call.isInitiate : Call → Bool
  | .initiate _ => true
  | .accept _ => false

namespace Network

variable {ops : Primitives} {M : Type} {fleet : Fleet ops M} {w : Network M}

/-! ## The invariant -/

/-- **The invariant of a network**: of every session, and that every signature was made by a session
of the machine whose key it verifies under, on the transcript that session derived. -/
structure Inv (fleet : Fleet ops M) (w : Network M) : Prop where
  safe : ∀ {id : ℕ} {m : M} {s : Session}, w.sessions[id]? = some (m, s) → s.Safe fleet w.log m
  signed : ∀ e ∈ w.log, ∃ m s d, w.sessions[e.session]? = some (m, s) ∧
    fleet.publicKey m = e.key ∧ s.derived = some d ∧ d.transcript = e.message

/-- A step of one session that advances it keeps the invariant of the network, with what it signs
added to the log. -/
theorem Inv.replace (h : w.Inv fleet) {id : ℕ} {m : M} {s : Session}
    (hs : w.sessions[id]? = some (m, s)) {r : Session × List Signing}
    (hr : s.Advances fleet w.log m id r) :
    Inv fleet ⟨w.sessions.set id (m, r.1), w.log ++ r.2⟩ := by
  have hlt : id < w.sessions.length := (List.getElem?_eq_some_iff.mp hs).1
  have hself : (w.sessions.set id (m, r.1))[id]? = some (m, r.1) := List.getElem?_set_self hlt
  constructor
  · intro j m' s' hj
    by_cases hjd : j = id
    · subst hjd
      rw [hself] at hj
      cases hj
      exact hr.safe.mono (List.subset_append_left _ _)
    · rw [List.getElem?_set_ne (Ne.symm hjd)] at hj
      exact (h.safe hj).mono (List.subset_append_left _ _)
  · intro e he
    rcases List.mem_append.mp he with he | he
    · obtain ⟨m', s', d, hs', hkey, hd, hmessage⟩ := h.signed e he
      by_cases hes : e.session = id
      · rw [hes, hs] at hs'
        cases hs'
        exact ⟨m, r.1, d, by rw [hes]; exact hself, hkey, hr.kept d hd, hmessage⟩
      · exact ⟨m', s', d, by rw [List.getElem?_set_ne (Ne.symm hes)]; exact hs', hkey, hd, hmessage⟩
    · obtain ⟨hes, hkey, d, hd, hmessage⟩ := hr.signed e he
      exact ⟨m, r.1, d, by rw [hes]; exact hself, hkey.symm, hd, hmessage⟩

/-- A new session that is safe keeps the invariant of the network; it has signed nothing yet. -/
theorem Inv.add (h : w.Inv fleet) {m : M} {s : Session} (hs : s.Safe fleet w.log m) :
    Inv fleet { w with sessions := w.sessions ++ [(m, s)] } := by
  constructor
  · intro j m' s' hj
    by_cases hlt : j < w.sessions.length
    · rw [List.getElem?_append_left hlt] at hj
      exact h.safe hj
    · rw [List.getElem?_append_right (not_lt.mp hlt), List.getElem?_singleton] at hj
      split at hj
      · cases hj
        exact hs
      · cases hj
  · intro e he
    obtain ⟨m', s', d, hs', hrest⟩ := h.signed e he
    have hlt := (List.getElem?_eq_some_iff.mp hs').1
    exact ⟨m', s', d, by rw [List.getElem?_append_left hlt]; exact hs', hrest⟩

/-- **Every move** keeps the invariant: a call that begins, bytes that arrive, and a poll. -/
theorem Inv.step (h : w.Inv fleet) (move : Move M) : (w.step fleet move).Inv fleet := by
  cases move with
  | start m call authenticated ephemeral nonce fate =>
      exact h.add (Session.start_safe fleet w.log m call authenticated ephemeral nonce fate)
  | deliver id bytes =>
      simp only [Network.step]
      split
      · exact h
      · next m s hs =>
        have hsafe := h.safe hs
        have hr : s.Advances fleet w.log m id (s.deliver bytes, []) :=
          hsafe.advance id rfl rfl rfl rfl rfl hsafe.stage
        have hnext := h.replace hs hr
        rw [List.append_nil] at hnext
        exact hnext
  | poll id events fate =>
      simp only [Network.step]
      split
      · exact h
      · next m s hs => exact h.replace hs ((h.safe hs).poll id events fate)

/-- The invariant holds before anything has happened: there is no session and no signature. -/
theorem Inv.empty : (Network.empty : Network M).Inv fleet := ⟨nofun, nofun⟩

/-! ## The other end of a handshake -/

/-- The ephemeral keys of the honest calls are different. -/
def Fresh (ops : Primitives) (w : Network M) : Prop :=
  (w.sessions.map fun p => p.2.ourEphPk ops).Nodup

/-- The transcripts that the honest calls have hashed, each with the flag of its mode. -/
def hashed (w : Network M) : List Bytes :=
  w.sessions.filterMap fun p => p.2.derived.map fun d => transcriptBytes p.2.authFlag d.hellos

/-- No two different transcripts that were hashed have the same hash. It is asked of these only, of
which there are finitely many. -/
def CollisionFree (ops : Primitives) (w : Network M) : Prop :=
  ∀ x ∈ w.hashed, ∀ y ∈ w.hashed, ops.sha256 x = ops.sha256 y → x = y

/-- The other end: machine `m` has run a call, in the given role, that derived this transcript from
the same hellos, and mirrored keys, and that has signed it with the key `pk`. -/
def PeerRan (w : Network M) (initiator : Bool) (m : M) (pk : Arr 32) (s : Session)
    (cipher : CipherStream) (transcript : Arr 32) : Prop :=
  ∃ d id peer d', s.derived = some d ∧ d.transcript = transcript ∧
    w.sessions[id]? = some (m, peer) ∧ peer.call.isInitiate = initiator ∧
    peer.derived = some d' ∧ d'.transcript = transcript ∧ d'.hellos = d.hellos ∧
    cipher.Mirrors d'.cipher ∧ ⟨id, pk, transcript⟩ ∈ w.log

/-- Different sessions have different ephemeral keys, so a session is determined by its own. -/
theorem Fresh.unique (h : w.Fresh ops) {i j : ℕ} {p q : M × Session} (hp : w.sessions[i]? = some p)
    (hq : w.sessions[j]? = some q) (heq : p.2.ourEphPk ops = q.2.ourEphPk ops) : i = j := by
  have hi : i < (w.sessions.map fun p => p.2.ourEphPk ops).length := by
    rw [List.length_map]
    exact (List.getElem?_eq_some_iff.mp hp).1
  refine (List.getElem?_inj hi h).mp ?_
  rw [List.getElem?_map, List.getElem?_map, hp, hq, Option.map_some, Option.map_some, heq]

/-- What a session has derived has been hashed, so that a collision with it would be one of the run.
-/
theorem mem_hashed {i : ℕ} {m : M} {s : Session} {d : Derived} (hs : w.sessions[i]? = some (m, s))
    (hd : s.derived = some d) : transcriptBytes s.authFlag d.hellos ∈ w.hashed := by
  refine List.mem_filterMap.mpr ⟨(m, s), List.mem_of_getElem? hs, ?_⟩
  rw [hd]
  rfl

/-- Sessions that derived the same transcript did so from the same hellos. -/
theorem Inv.hellos_eq (h : w.Inv fleet) (hsha : w.CollisionFree ops) {i j : ℕ} {m m' : M}
    {s s' : Session} {d d' : Derived} (hs : w.sessions[i]? = some (m, s))
    (hs' : w.sessions[j]? = some (m', s')) (hd : s.derived = some d) (hd' : s'.derived = some d')
    (heq : d.transcript = d'.transcript) : s.authFlag = s'.authFlag ∧ d.hellos = d'.hellos := by
  rw [((h.safe hs).derives d hd).transcript_eq, ((h.safe hs').derives d' hd').transcript_eq] at heq
  exact transcriptBytes_inj (hsha _ (mem_hashed hs hd) _ (mem_hashed hs' hd') heq)

/-- **The other end of a handshake.** A call that has authenticated the key of an honest machine,
not its own, was run against a call of that machine in the other role. -/
theorem Inv.peerRan (h : w.Inv fleet)
    (hdh : ∀ a b, ops.diffieHellman a (ops.publicKey b) = ops.diffieHellman b (ops.publicKey a))
    (hfresh : w.Fresh ops) (hsha : w.CollisionFree ops) {id : ℕ} {m owner : M}
    {s : Session} {cipher : CipherStream} {transcript : Arr 32} {machineId : String} {pk : Arr 32}
    (hs : w.sessions[id]? = some (m, s))
    (hstage : s.stage = .done cipher transcript (.authenticated machineId pk))
    (howner : fleet.owner pk = some owner) (hne : owner ≠ m) :
    w.PeerRan (!s.call.isInitiate) owner pk s cipher transcript := by
  have hsafe := h.safe hs
  have hdone := hsafe.stage
  rw [hstage] at hdone
  obtain ⟨⟨d, hd, rfl, hkeys⟩, -, hsigned⟩ := hdone
  obtain ⟨e, he, rfl, hmessage⟩ := hsigned owner howner
  obtain ⟨m', s', d', hs', hkey, hd', htranscript⟩ := h.signed e he
  -- the key belongs to one machine only
  have hm' : m' = owner := by
    rw [(fleet.owner_iff _ _).mpr hkey] at howner
    exact Option.some.inj howner
  subst hm'
  have hids : e.session ≠ id := by
    intro heq
    rw [heq, hs] at hs'
    cases hs'
    exact hne rfl
  have heq : d.transcript = d'.transcript := by rw [htranscript, hmessage]
  obtain ⟨hflag, hhellos⟩ := h.hellos_eq hsha hs hs' hd hd' heq
  have hderives := hsafe.derives d hd
  have hderives' := (h.safe hs').derives d' hd'
  have hentry : (⟨e.session, e.key, d.transcript⟩ : Signing) ∈ w.log := by
    rw [← hmessage]
    exact he
  -- in the same role the two calls would show the same ephemeral key
  cases hcall : s.call with
  | initiate expectedPeer =>
      obtain ⟨hpub, -, hfinal⟩ := (Session.derives_initiate hcall).mp hderives
      cases hcall' : s'.call with
      | initiate expectedPeer' =>
          obtain ⟨hpub', -, -⟩ := (Session.derives_initiate hcall').mp hderives'
          exact absurd (hfresh.unique hs' hs (by rw [← hpub', ← hhellos, hpub])) hids
      | accept resolvePubkey =>
          obtain ⟨hpub', -, hfinal'⟩ := (Session.derives_accept hcall').mp hderives'
          refine ⟨d, e.session, s', d', hd, rfl, hs', by rw [hcall']; rfl, hd', heq.symm,
            hhellos.symm, ?_, hentry⟩
          rw [← hhellos] at hpub' hfinal'
          rw [← hflag] at hfinal'
          have hmirror := (finalizeKeys_mirror hdh hpub hpub' s.authFlag).2
          rw [← hfinal, ← hfinal'] at hmirror
          exact hmirror.of_same hkeys
  | accept resolvePubkey =>
      obtain ⟨hpub, -, hfinal⟩ := (Session.derives_accept hcall).mp hderives
      cases hcall' : s'.call with
      | accept resolvePubkey' =>
          obtain ⟨hpub', -, -⟩ := (Session.derives_accept hcall').mp hderives'
          exact absurd (hfresh.unique hs' hs (by rw [← hpub', ← hhellos, hpub])) hids
      | initiate expectedPeer =>
          obtain ⟨hpub', -, hfinal'⟩ := (Session.derives_initiate hcall').mp hderives'
          refine ⟨d, e.session, s', d', hd, rfl, hs', by rw [hcall']; rfl, hd', heq.symm,
            hhellos.symm, ?_, hentry⟩
          rw [← hhellos] at hpub' hfinal'
          rw [← hflag] at hfinal'
          have hmirror := (finalizeKeys_mirror hdh hpub' hpub s.authFlag).2
          rw [← hfinal, ← hfinal'] at hmirror
          exact hmirror.symm.of_same hkeys

/-! ## What the two functions return -/

/-- What `accept` returns: an identity the resolver knows, and, if its key is that of another honest
machine, that machine ran `initiate` at the other end. -/
def AcceptAgrees (fleet : Fleet ops M) (w : Network M) : Prop :=
  ∀ (id : ℕ) m s resolvePubkey cipher transcript machineId pk, w.sessions[id]? = some (m, s) →
    s.call = .accept resolvePubkey →
    s.stage = .done cipher transcript (.authenticated machineId pk) →
    resolvePubkey machineId = some pk ∧
      ∀ owner, fleet.owner pk = some owner → owner ≠ m →
        w.PeerRan true owner pk s cipher transcript

/-- What `initiate` returns when it expects somebody: exactly that identity, and, if its key is that
of another honest machine, that machine ran `accept` at the other end. -/
def InitiateAgrees (fleet : Fleet ops M) (w : Network M) : Prop :=
  ∀ (id : ℕ) m s wantId wantPk cipher transcript machineId pk, w.sessions[id]? = some (m, s) →
    s.call = .initiate (some (wantId, wantPk)) →
    s.stage = .done cipher transcript (.authenticated machineId pk) →
    (machineId = wantId ∧ pk = wantPk) ∧
      ∀ owner, fleet.owner pk = some owner → owner ≠ m →
        w.PeerRan false owner pk s cipher transcript

/-- An accepted peer has passed the check of the call. -/
theorem Inv.checked (h : w.Inv fleet) {id : ℕ} {m : M} {s : Session} {cipher : CipherStream}
    {transcript : Arr 32} {machineId : String} {pk : Arr 32} (hs : w.sessions[id]? = some (m, s))
    (hstage : s.stage = .done cipher transcript (.authenticated machineId pk)) :
    s.call.check machineId pk = .ok () := by
  have hdone := (h.safe hs).stage
  rw [hstage] at hdone
  exact hdone.2.1

variable (hdh : ∀ a b,
  ops.diffieHellman a (ops.publicKey b) = ops.diffieHellman b (ops.publicKey a))

include hdh in
/-- `accept` agrees with the other end: the invariant gives what it returns in every state of a run
with fresh keys and without collisions. -/
theorem Inv.acceptAgrees (h : w.Inv fleet) (hfresh : w.Fresh ops) (hsha : w.CollisionFree ops) :
    w.AcceptAgrees fleet := by
  intro id m s resolvePubkey cipher transcript machineId pk hs hcall hstage
  have hcheck := h.checked hs hstage
  rw [hcall] at hcheck
  refine ⟨acceptCheck_ok hcheck, fun owner howner hne => ?_⟩
  have hran := h.peerRan hdh hfresh hsha hs hstage howner hne
  rw [hcall] at hran
  exact hran

include hdh in
/-- `initiate` agrees with the other end, in the same way as `accept` does. -/
theorem Inv.initiateAgrees (h : w.Inv fleet) (hfresh : w.Fresh ops) (hsha : w.CollisionFree ops) :
    w.InitiateAgrees fleet := by
  intro id m s wantId wantPk cipher transcript machineId pk hs hcall hstage
  have hcheck := h.checked hs hstage
  rw [hcall] at hcheck
  refine ⟨initiateCheck_ok hcheck, fun owner howner hne => ?_⟩
  have hran := h.peerRan hdh hfresh hsha hs hstage howner hne
  rw [hcall] at hran
  exact hran

end Network

end Synbad
