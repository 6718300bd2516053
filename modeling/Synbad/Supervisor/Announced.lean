import Synbad.Supervisor.Broadcast
import Synbad.Supervisor.Restarts

/-! # Announcing the document

Whoever changes the document broadcasts `ConfigChanged`, and subscribers fetch it again. The rollback
of a rejected merge is the exception: it reads the file back, which may have been edited meanwhile,
and says nothing.

The announcements are counted over all events so far (`announced`), so that an event of the loop that
announces the document raises a number. `handle_announces` goes through every event the loop can pick
up: the document is as it was, or it has been announced, or the event is a merge that was rolled back
to what the file says (`RollsBackTo`). An accepted edit is announced even if it changes nothing
(`announced_lt_setConfig`). A window that fetches the document whenever it is announced therefore
shows the daemon's document, except after such a rollback; that is shown for its runs where the window
is modelled. -/

namespace Synbad

namespace Supervisor

/-- How often the document has been announced, counted over all events so far. -/
def announced (s : Supervisor) : ℕ := s.events.count .configChanged

/-- The event puts this document in place of ours without announcing it. -/
def RollsBackTo (s : Supervisor) (env : Env) (e : LoopEvent) (c : Config) : Prop :=
  s.RollsBack env e ∧ s.disk.loadConfig env = .ok (some c)

variable {s t : Supervisor}

/-- Announcements are not taken back: events only come behind those there are. -/
theorem Tells.announced_le (h : s.Tells t) : s.announced ≤ t.announced := by
  obtain ⟨events, hevents, -⟩ := h
  rw [announced, announced, hevents, List.count_append]
  exact Nat.le_add_right _ _

/-- Broadcasting `ConfigChanged` is one more announcement. -/
theorem announced_emit (s : Supervisor) : (s.emit .configChanged).announced = s.announced + 1 := by
  show (s.events ++ [Ipc.Event.configChanged]).count .configChanged = _
  rw [List.count_append, List.count_singleton_self]
  rfl

/-- A local edit is announced, whether or not it bounces the Core. -/
theorem announced_lt_applyLocalEdit (s : Supervisor) (env : Env) (c : Config) (restart : Bool) :
    s.announced < (s.applyLocalEdit env c restart).announced := by
  have hswap : (s.swapDocument env c).announced = s.announced + 1 := announced_emit _
  have hrestart : ∀ b, s.announced + 1 ≤ ((s.swapDocument env c).restartIfWanted b).announced := by
    intro b
    rw [← hswap]
    exact ((Tells.refl (s.swapDocument env c)).restartIfWanted b).announced_le
  unfold applyLocalEdit
  simp only
  split
  · exact hrestart _
  · exact hrestart _

/-- **An edit that is accepted is announced**, also one that changes nothing. -/
theorem announced_lt_setConfig {env : Env} {c : Config} (h : (s.setConfig env c).2.isOk = true) :
    s.announced < (s.setConfig env c).1.announced := by
  unfold setConfig at h ⊢
  split at h
  · cases h
  · split at h
    · cases h
    · next disk _ => exact announced_lt_applyLocalEdit { s with disk := disk } env c true

/-- An adopted merge is announced, whatever becomes of the files. -/
theorem announced_lt_adoptMerged (s : Supervisor) (env : Env) :
    s.announced < (s.adoptMerged env).announced := by
  have hemit : ∀ t : Supervisor, t.events = s.events → ∀ b,
      s.announced < ((t.emit .configChanged).restartIfWanted b).announced := by
    intro t ht b
    have hle := ((Tells.refl (t.emit .configChanged)).restartIfWanted b).announced_le
    rw [announced_emit, announced, ht, ← announced] at hle
    exact hle
  unfold adoptMerged
  -- the documents and files are written before the announcement
  apply hemit
  rfl

/-- An edit that is refused changes nothing at all. -/
theorem setConfig_of_refused {env : Env} {c : Config} (h : (s.setConfig env c).2.isOk = false) :
    (s.setConfig env c).1 = s := by
  unfold setConfig at h ⊢
  split at h
  · rfl
  · split at h
    · rfl
    · cases h

/-- A local edit changes the document with an announcement, or not at all. -/
theorem setConfig_announces (s : Supervisor) (env : Env) (c : Config) :
    (s.setConfig env c).1.config = s.config ∨ s.announced < (s.setConfig env c).1.announced := by
  cases hok : (s.setConfig env c).2.isOk with
  | true => exact Or.inr (announced_lt_setConfig hok)
  | false => exact Or.inl (congrArg Supervisor.config (setConfig_of_refused hok))

/-- A request changes the document with an announcement, or not at all. -/
theorem handleRequest_announces (s : Supervisor) (env : Env) (r : Request) :
    (s.handleRequest env r).1.config = s.config ∨
      s.announced < (s.handleRequest env r).1.announced := by
  cases r with
  | getStatus => exact Or.inl rfl
  | getConfig => exact Or.inl rfl
  | setConfig c => exact setConfig_announces s env c
  | start => exact Or.inl (congrArg Docs.config (startCore_docs _))
  | stop => exact Or.inl (congrArg Docs.config (stopCore_docs _))
  | restart => exact Or.inl (congrArg Docs.config (restartCore_docs _))
  | setAudioConfig audio => exact setConfig_announces s env _
  | shutdown => exact Or.inl rfl

/-- A reload changes the document with an announcement, or not at all. -/
theorem handleConfigChanged_announces (s : Supervisor) (env : Env) :
    (s.handleConfigChanged env).config = s.config ∨
      s.announced < (s.handleConfigChanged env).announced := by
  unfold handleConfigChanged
  split
  · split
    · exact Or.inl rfl
    · exact Or.inr (announced_lt_applyLocalEdit s env _ true)
  · exact Or.inl rfl
  · exact Or.inl rfl

/-- A merge leaves the document as it is, or is announced, or is rolled back to a document that is not
announced. -/
theorem handleMerge_announces (s : Supervisor) (env : Env) (peer : String)
    (incoming : VersionedConfig) :
    (s.handleMerge env incoming).config = s.config ∨
      s.announced < (s.handleMerge env incoming).announced ∨
      s.RollsBackTo env (.syncOp (.merge peer incoming)) (s.handleMerge env incoming).config := by
  cases houtcome : (s.versioned.merge incoming).2 with
  | noChange =>
      simp only [handleMerge, houtcome]
      exact Or.inl trivial
  | updated =>
  obtain ⟨hno, -⟩ | ⟨-, heq⟩ | ⟨hinvalid, heq⟩ := handleMerge_cases s env incoming
  · rw [houtcome] at hno
    cases hno
  · rw [heq]
    exact Or.inr (Or.inl (announced_lt_adoptMerged (s.merging incoming) env))
  · rw [heq]
    by_cases hc : ∃ c, s.disk.loadConfig env = .ok (some c)
    · obtain ⟨c, hc⟩ := hc
      have hload : (s.merging incoming).disk.loadConfig env = .ok (some c) := hc
      rw [rollBack_of_loaded hload]
      exact Or.inr (Or.inr ⟨⟨houtcome, hinvalid, c, hc⟩, hc⟩)
    · -- there is no file to go back to, and ours stays
      have hnone : ∀ c, (s.merging incoming).disk.loadConfig env ≠ .ok (some c) :=
        fun c h => hc ⟨c, h⟩
      rw [rollBack_of_not_loaded hnone]
      exact Or.inl rfl

/-- **A change of the document is announced**, unless it is rolled back. -/
theorem handle_announces (s : Supervisor) (env : Env) (e : LoopEvent) :
    (s.handle env e).config = s.config ∨ s.announced < (s.handle env e).announced ∨
      s.RollsBackTo env e (s.handle env e).config := by
  have hkeep : ∀ {t : Supervisor}, t.docs = s.docs → t.config = s.config :=
    fun h => congrArg Docs.config h
  cases e with
  | request r => exact (handleRequest_announces s env r).imp_right Or.inl
  | fsChanged => exact (handleConfigChanged_announces s env).imp_right Or.inl
  | syncOp op =>
      cases op with
      | snapshot => exact Or.inl rfl
      | merge peer incoming => exact handleMerge_announces s env peer incoming
  -- the Core's side leaves the document alone
  | coreResolved fetched => exact Or.inl (hkeep (coreResolved_docs s env fetched))
  | childExit pid status => exact Or.inl (hkeep (handleChildExit_docs s env pid status))
  | restartDue => exact Or.inl (hkeep (restartDue_docs s env))
  | coreStalled => exact Or.inl (hkeep (coreStalled_docs s env))
  | coreLog pid line => exact Or.inl (hkeep (handleCoreLog_docs s env pid line))
  | log line => exact Or.inl (hkeep (recordLog_docs s line))
  | signal => exact Or.inl rfl

/-- A rollback puts the document in place and announces nothing. -/
theorem RollsBackTo.handle {env : Env} {e : LoopEvent} {c : Config} (h : s.RollsBackTo env e c) :
    (s.handle env e).config = c ∧ (s.handle env e).announced = s.announced ∧
      (s.handle env e).leavesLoop e = false := by
  obtain ⟨hroll, hload⟩ := h
  cases e with
  | syncOp op =>
      cases op with
      | snapshot => exact hroll.elim
      | merge peer incoming =>
          obtain ⟨houtcome, hinvalid, -⟩ := hroll
          have hmerge : s.handleMerge env incoming = (s.merging incoming).rollBack env := by
            obtain ⟨hno, -⟩ | ⟨hvalid, -⟩ | ⟨-, heq⟩ := handleMerge_cases s env incoming
            · rw [houtcome] at hno
              cases hno
            · exact absurd hvalid hinvalid
            · exact heq
          have hloaded : (s.merging incoming).disk.loadConfig env = .ok (some c) := hload
          rw [rollBack_of_loaded hloaded] at hmerge
          have hhandle : s.handle env (.syncOp (.merge peer incoming)) =
              (s.handleMerge env incoming).sendReply := rfl
          rw [hhandle, hmerge]
          exact ⟨rfl, rfl, rfl⟩
  | _ => exact hroll.elim

end Supervisor

end Synbad
