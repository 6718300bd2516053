import Synbad.Config.Core
import Synbad.Sync.Session
import Mathlib.Data.List.Nodup

/-! # The edit buffer of the window

The part of `SynbadApp` that holds the edited document: what an update does to it, what the buttons
and tabs do, and the periodic `reconcile`, which mirrors the local monitors and appends paired
machines as screens without being asked. A pass appends a screen for every missing peer, so it appends
two of one name if two missing peers share it; a second pass never does anything.

`reconcile_eq` says what a pass comes to that nothing keeps from running: the screens are the mirrored
ones with a screen for each missing peer behind them, and the document is sent if that is a change.
What a pass is for is said without the code's own list of names: a peer is `Missing` if no screen has
its display name and it is not our own name, and `Populates` asks that every screen stays where it is,
that each missing machine's name appears once and nothing else does, and that names stay distinct.
`populates_iff` is the exact condition: no two paired machines share a display name that is missing. -/

namespace Synbad

/-! ## Commands and updates -/

/-- `Cmd`: what the window asks of the command thread. -/
inductive Cmd where
  | start
  | stop
  | restart
  | setConfig (config : Config)
  | refresh
  | setAudioConfig (audio : AudioConfig)
  /-- A command about peers, pairing or audio devices, which concerns no document. -/
  | other

/-- `Update`, as far as it is about the edited document. -/
inductive EditUpdate where
  | connected
  | disconnected
  | launching
  | config (config : Config)
  /-- The trusted peers after a snapshot, a pairing or a revocation. -/
  | trusted (peers : BTreeMap String TrustedPeer)
  | other

/-- The edited document in `SynbadApp`, with what decides about it. -/
structure EditBuffer where
  connected : Bool
  config : Config
  /-- The document diverges from what the daemon last reported. -/
  dirty : Bool
  /-- A document that arrived while there were unsaved edits. -/
  pendingRemoteConfig : Option Config
  /-- `LayoutEditor::is_dragging`, as the window asks the layout editor. -/
  dragging : Bool
  /-- The paired machines by machine id, as the daemon last told. -/
  trustedPeers : BTreeMap String TrustedPeer
  localMonitors : List MonitorInfo
  /-- What has been sent and not been taken up by the command thread. -/
  commands : List Cmd

namespace EditBuffer

/-- `send`: a command behind those the command thread has not taken yet. -/
def send (b : EditBuffer) (cmd : Cmd) : EditBuffer := { b with commands := b.commands ++ [cmd] }

/-- One update of `drain_ipc`, as far as it is about the edited document. -/
def apply (b : EditBuffer) : EditUpdate → EditBuffer
  | .connected => { b with connected := true }
  | .disconnected => { b with connected := false }
  | .launching => { b with connected := false }
  | .config c =>
      -- unsaved edits are not overwritten
      if b.dirty then { b with pendingRemoteConfig := some c }
      else { b with config := c, pendingRemoteConfig := none }
  | .trusted peers => { b with trustedPeers := peers }
  | .other => b

/-! ## Reconciling -/

/-- Mirror the monitors into the first screen of this name, and whether that changes it. -/
def mirrorMonitors (serverName : String) (monitors : List MonitorInfo) :
    List Screen → List Screen × Bool
  | [] => ([], false)
  | s :: screens =>
      if s.name = serverName then
        if s.monitors ≠ monitors then ({ s with monitors := monitors } :: screens, true)
        else (s :: screens, false)
      else
        let rest := mirrorMonitors serverName monitors screens
        (s :: rest.1, rest.2)

/-- The names of the paired machines that have no screen, in the order of their machine ids. A peer
with our own name is passed over. -/
def toAdd (c : Config) (trusted : BTreeMap String TrustedPeer) : List String :=
  ((trusted.entries.map Prod.snd).filter fun p =>
    p.displayName != c.serverName && !Config.hasScreen c.screens p.displayName).map
      TrustedPeer.displayName

/-- Wrap around as an `i32`, as the cast of a count does. -/
def i32 (n : Int) : Int := Int.bmod n (2 ^ 32)

/-- The screen that is appended after this many others, in a grid of three columns. -/
def addedScreen (count : ℕ) (name : String) : Screen where
  name := name
  aliases := []
  position :=
    { x := i32 ((i32 count).tmod 3 * 200), y := i32 ((i32 count).tdiv 3 * 160), w := 160, h := 120 }
  monitors := []

/-- Append screens one by one, each placed by how many there are before it. -/
def pushScreens (screens : List Screen) (names : List String) : List Screen :=
  names.foldl (fun screens name => screens ++ [addedScreen screens.length name]) screens

/-- `reconcile`, with the monitors that `enumerate` reports. A change is written to the document and
sent at once. -/
def reconcile (b : EditBuffer) (fresh : List MonitorInfo) : EditBuffer :=
  if !b.connected then b
  -- a banner that has not been resolved yet
  else if b.pendingRemoteConfig.isSome then b
  else if b.dragging then b
  else
    let b := { b with localMonitors := fresh }
    let mirrored := mirrorMonitors b.config.serverName b.localMonitors b.config.screens
    -- decided before anything is appended
    let names := toAdd b.config b.trustedPeers
    if mirrored.2 || !names.isEmpty then
      let config := { b.config with screens := pushScreens mirrored.1 names }
      { b with config := config, dirty := false }.send (.setConfig config)
    else b

/-! ## What a pass does to the screens -/

/-- What a screen is beside its monitors: its name, its aliases and its place. -/
def placed (s : Screen) : String × List String × GridPosition := (s.name, s.aliases, s.position)

/-- Mirroring the monitors changes nothing of the screens but monitors. -/
theorem mirrorMonitors_placed (serverName : String) (monitors : List MonitorInfo)
    (screens : List Screen) :
    (mirrorMonitors serverName monitors screens).1.map placed = screens.map placed := by
  induction screens with
  | nil => rfl
  | cons s screens ih =>
      rw [mirrorMonitors]
      split
      · split <;> rfl
      · exact congrArg (placed s :: ·) ih

/-- Mirroring the monitors changes no screen's name. -/
theorem mirrorMonitors_names (serverName : String) (monitors : List MonitorInfo)
    (screens : List Screen) :
    (mirrorMonitors serverName monitors screens).1.map Screen.name = screens.map Screen.name := by
  have hplaced := congrArg (List.map Prod.fst) (mirrorMonitors_placed serverName monitors screens)
  rw [List.map_map, List.map_map] at hplaced
  exact hplaced

/-- If mirroring reports no change, the screens are the same. -/
theorem mirrorMonitors_of_same {serverName : String} {monitors : List MonitorInfo}
    {screens : List Screen} (h : (mirrorMonitors serverName monitors screens).2 = false) :
    (mirrorMonitors serverName monitors screens).1 = screens := by
  induction screens with
  | nil => rfl
  | cons s screens ih =>
      rw [mirrorMonitors] at h ⊢
      split at h
      · next hs =>
        rw [if_pos hs]
        split at h
        · cases h
        · next hm => rw [if_neg hm]
      · next hs =>
        rw [if_neg hs]
        exact congrArg (s :: ·) (ih h)

/-- Mirroring again changes nothing, and neither do screens of other names at the end. -/
theorem mirrorMonitors_again (serverName : String) (monitors : List MonitorInfo)
    (screens : List Screen) {more : List Screen} (hmore : ∀ s ∈ more, s.name ≠ serverName) :
    (mirrorMonitors serverName monitors
      ((mirrorMonitors serverName monitors screens).1 ++ more)).2 = false := by
  induction screens with
  | nil =>
      rw [mirrorMonitors, List.nil_append]
      induction more with
      | nil => rfl
      | cons s more ih =>
          rw [mirrorMonitors, if_neg (hmore s List.mem_cons_self)]
          exact ih fun t ht => hmore t (List.mem_cons_of_mem s ht)
  | cons s screens ih =>
      rw [mirrorMonitors]
      split
      · next hs =>
        split
        · rw [List.cons_append, mirrorMonitors, if_pos hs]
          simp
        · next hm => rw [List.cons_append, mirrorMonitors, if_pos hs, if_neg hm]
      · next hs =>
        rw [List.cons_append, mirrorMonitors, if_neg hs]
        exact ih

/-- Appending adds screens with these names behind those there are. -/
theorem pushScreens_eq (screens : List Screen) (names : List String) :
    ∃ added, pushScreens screens names = screens ++ added ∧ added.map Screen.name = names := by
  induction names generalizing screens with
  | nil => exact ⟨[], (List.append_nil _).symm, rfl⟩
  | cons name names ih =>
      -- each screen is placed by how many there are before it
      obtain ⟨added, hpush, hnames⟩ := ih (screens ++ [addedScreen screens.length name])
      refine ⟨addedScreen screens.length name :: added, ?_, congrArg (name :: ·) hnames⟩
      rw [pushScreens, List.foldl_cons, ← pushScreens, hpush, List.append_assoc]
      rfl

/-- The paired machines, in the order of their machine ids. -/
def peers (b : EditBuffer) : List TrustedPeer := b.trustedPeers.entries.map Prod.snd

/-- A paired machine is missing if no screen has its display name and the name is not our own. This is
said of the document and the peer alone; what a pass decides to append is compared with it. -/
def Missing (b : EditBuffer) (p : TrustedPeer) : Prop :=
  p.displayName ≠ b.config.serverName ∧ p.displayName ∉ b.config.screens.map Screen.name

/-- Whether a trusted peer has no screen yet can be computed. -/
instance (b : EditBuffer) (p : TrustedPeer) : Decidable (b.Missing p) :=
  inferInstanceAs (Decidable (_ ∧ _))

variable {b : EditBuffer}

/-- The test of the pass picks exactly the machines that are missing. -/
theorem missing_iff {p : TrustedPeer} :
    (p.displayName != b.config.serverName &&
        !Config.hasScreen b.config.screens p.displayName) = true ↔ b.Missing p := by
  rw [Bool.and_eq_true, bne_iff_ne, Bool.not_eq_true', ← Bool.not_eq_true, Config.hasScreen,
    List.any_eq_true, Missing, List.mem_map]
  simp

/-- The names to be added are those of the missing machines. -/
theorem mem_toAdd {name : String} :
    name ∈ toAdd b.config b.trustedPeers ↔ ∃ p ∈ b.peers, b.Missing p ∧ p.displayName = name := by
  rw [toAdd, List.mem_map]
  constructor
  · rintro ⟨p, hp, rfl⟩
    rw [List.mem_filter] at hp
    exact ⟨p, hp.1, missing_iff.mp hp.2, rfl⟩
  · rintro ⟨p, hp, hmissing, rfl⟩
    exact ⟨p, List.mem_filter.mpr ⟨hp, missing_iff.mpr hmissing⟩, rfl⟩

/-- No name is to be added twice exactly if no two missing machines share their display name. -/
theorem nodup_toAdd_iff :
    (toAdd b.config b.trustedPeers).Nodup ↔
      b.peers.Pairwise fun p q => p.displayName = q.displayName → ¬ b.Missing p := by
  rw [toAdd, List.Nodup, List.pairwise_map, List.pairwise_filter]
  refine List.Pairwise.iff fun p q => ?_
  rw [missing_iff, missing_iff]
  constructor
  · intro h hname hp
    -- a machine of the same name is missing too
    have hq : b.Missing q := by rwa [Missing, ← hname]
    exact h hp hq hname
  · exact fun h hp _ hname => h hname hp

/-! ## One pass and the next -/

/-- Nothing keeps the pass from running: the daemon is there, no banner is shown and nothing is being
dragged. -/
def Reconciles (b : EditBuffer) : Prop :=
  b.connected = true ∧ b.pendingRemoteConfig = none ∧ b.dragging = false

/-- The screens after a pass that runs, whether or not anything has changed. -/
def reconciled (b : EditBuffer) (fresh : List MonitorInfo) : List Screen :=
  pushScreens (mirrorMonitors b.config.serverName fresh b.config.screens).1
    (toAdd b.config b.trustedPeers)

/-- **A pass that runs**: the screens are the reconciled ones, and only a change is sent. -/
theorem Reconciles.reconcile_eq (h : b.Reconciles) (fresh : List MonitorInfo) :
    b.reconcile fresh =
      if (mirrorMonitors b.config.serverName fresh b.config.screens).2 ||
          !(toAdd b.config b.trustedPeers).isEmpty then
        { b with
          localMonitors := fresh, dirty := false
          config := { b.config with screens := b.reconciled fresh }
          commands :=
            b.commands ++ [.setConfig { b.config with screens := b.reconciled fresh }] }
      else { b with localMonitors := fresh } := by
  obtain ⟨hconnected, hpending, hdragging⟩ := h
  rw [reconcile, hconnected, hpending, hdragging]
  rfl

/-- The screens are reconciled whether that is a change or not. -/
theorem Reconciles.screens (h : b.Reconciles) (fresh : List MonitorInfo) :
    (b.reconcile fresh).config = { b.config with screens := b.reconciled fresh } := by
  rw [h.reconcile_eq]
  split
  · rfl
  · next hsame =>
    rw [Bool.not_eq_true, Bool.or_eq_false_iff, Bool.not_eq_false', List.isEmpty_iff] at hsame
    rw [reconciled, hsame.2, mirrorMonitors_of_same hsame.1]
    rfl

/-- A pass with nothing to do does nothing, and sends nothing. -/
theorem Reconciles.reconcile_of_nothing (h : b.Reconciles) {fresh : List MonitorInfo}
    (hmonitors : b.localMonitors = fresh)
    (hmirror : (mirrorMonitors b.config.serverName fresh b.config.screens).2 = false)
    (hadd : toAdd b.config b.trustedPeers = []) : b.reconcile fresh = b := by
  rw [h.reconcile_eq, hmirror, hadd, ← hmonitors]
  rfl

/-- A pass after a pass finds nothing to do. -/
theorem Reconciles.again (h : b.Reconciles) (fresh : List MonitorInfo) :
    (b.reconcile fresh).reconcile fresh = b.reconcile fresh := by
  have hscreens := h.screens fresh
  have hkeeps : (b.reconcile fresh).Reconciles ∧ (b.reconcile fresh).localMonitors = fresh ∧
      (b.reconcile fresh).trustedPeers = b.trustedPeers := by
    rw [h.reconcile_eq]
    split <;> exact ⟨h, rfl, rfl⟩
  obtain ⟨hagain, hmonitors, htrusted⟩ := hkeeps
  obtain ⟨added, hpush, hnames⟩ := pushScreens_eq
    (mirrorMonitors b.config.serverName fresh b.config.screens).1 (toAdd b.config b.trustedPeers)
  -- what was appended does not have our own name
  have hmirror : (mirrorMonitors b.config.serverName fresh (b.reconciled fresh)).2 = false := by
    rw [reconciled, hpush]
    refine mirrorMonitors_again _ _ _ fun s hs => ?_
    have hmem : s.name ∈ toAdd b.config b.trustedPeers := by
      rw [← hnames]
      exact List.mem_map_of_mem hs
    obtain ⟨p, -, hmissing, hname⟩ := mem_toAdd.mp hmem
    exact hname ▸ hmissing.1
  -- and every peer that was missing has a screen now
  have hadd : toAdd (b.reconcile fresh).config (b.reconcile fresh).trustedPeers = [] := by
    rw [List.eq_nil_iff_forall_not_mem]
    intro name hname
    obtain ⟨p, hp, ⟨hne, hnone⟩, rfl⟩ := mem_toAdd.mp hname
    rw [hscreens] at hne hnone
    rw [peers, htrusted] at hp
    refine hnone ?_
    show p.displayName ∈ (b.reconciled fresh).map Screen.name
    rw [reconciled, hpush, List.map_append, mirrorMonitors_names, hnames, List.mem_append]
    by_cases hold : p.displayName ∈ b.config.screens.map Screen.name
    · exact Or.inl hold
    · exact Or.inr (mem_toAdd.mpr ⟨p, hp, ⟨hne, hold⟩, rfl⟩)
  refine hagain.reconcile_of_nothing hmonitors ?_ hadd
  rw [hscreens]
  exact hmirror

/-- The names of the screens that a pass has appended to those that were there. -/
def addedNames (b : EditBuffer) (fresh : List MonitorInfo) : List String :=
  ((b.reconcile fresh).config.screens.drop b.config.screens.length).map Screen.name

/-- **What a pass is for**: the names of the screens stay distinct, every screen that was there stays
where it is, each missing machine's display name gets exactly one screen, no other screen is appended,
and a second pass with the same monitors neither changes nor sends anything. -/
structure Populates (b : EditBuffer) (fresh : List MonitorInfo) : Prop where
  names : ((b.reconcile fresh).config.screens.map Screen.name).Nodup
  kept : ((b.reconcile fresh).config.screens.take b.config.screens.length).map placed =
    b.config.screens.map placed
  added : ∀ p ∈ b.peers, b.Missing p → (b.addedNames fresh).count p.displayName = 1
  nobody : ∀ name ∈ b.addedNames fresh, ∃ p ∈ b.peers, b.Missing p ∧ p.displayName = name
  again : (b.reconcile fresh).reconcile fresh = b.reconcile fresh

/-- **When a pass keeps the names distinct**: exactly if no two paired machines share a display name
that is missing, that is, neither our own nor the name of a screen. -/
theorem populates_iff (hnames : (b.config.screens.map Screen.name).Nodup) (hruns : b.Reconciles)
    (fresh : List MonitorInfo) :
    b.Populates fresh ↔
      b.peers.Pairwise fun p q => p.displayName = q.displayName → ¬ b.Missing p := by
  rw [← nodup_toAdd_iff]
  -- the reconciled screens are those there were, with their monitors, and the added ones
  obtain ⟨added, hpush, haddedNames⟩ := pushScreens_eq
    (mirrorMonitors b.config.serverName fresh b.config.screens).1 (toAdd b.config b.trustedPeers)
  have hscreens : (b.reconcile fresh).config.screens =
      (mirrorMonitors b.config.serverName fresh b.config.screens).1 ++ added := by
    rw [hruns.screens]
    exact hpush
  have hlength : (mirrorMonitors b.config.serverName fresh b.config.screens).1.length =
      b.config.screens.length := by
    have hplaced := congrArg List.length
      (mirrorMonitors_placed b.config.serverName fresh b.config.screens)
    rwa [List.length_map, List.length_map] at hplaced
  have hadded : b.addedNames fresh = toAdd b.config b.trustedPeers := by
    rw [addedNames, hscreens, ← hlength, List.drop_left, haddedNames]
  constructor
  · intro h
    -- among distinct names those that were added are distinct
    have hnodup := h.names
    rw [hscreens, List.map_append, haddedNames] at hnodup
    exact (List.nodup_append'.mp hnodup).2.1
  · intro h
    refine ⟨?_, ?_, fun p hp hmissing => ?_, fun name hname => ?_, hruns.again fresh⟩
    -- and no added name is one of those there were, as only what is missing is added
    · rw [hscreens, List.map_append, mirrorMonitors_names, haddedNames, List.nodup_append']
      refine ⟨hnames, h, fun name hold hnew => ?_⟩
      obtain ⟨p, -, hmissing, rfl⟩ := mem_toAdd.mp hnew
      exact hmissing.2 hold
    · rw [hscreens, ← hlength, List.take_left, mirrorMonitors_placed]
    · rw [hadded]
      exact List.count_eq_one_of_mem h (mem_toAdd.mpr ⟨p, hp, hmissing, rfl⟩)
    · rw [hadded] at hname
      exact mem_toAdd.mp hname

/-- A window that shows the default document, with these paired machines. -/
def paired (peers : BTreeMap String TrustedPeer) : EditBuffer :=
  ⟨true, Config.default, false, none, false, peers, [], []⟩

/-- Two paired machines, one of them with our own name. -/
def namesake : BTreeMap String TrustedPeer :=
  ⟨[("b", ⟨"b", "laptop", "00", "aaaa-bbbb-cccc-dddd", 1700000000⟩),
    ("c", ⟨"c", "this-machine", "01", "bbbb-cccc-dddd-eeee", 1700000001⟩)], by decide⟩

/-- With one peer of our own name, each name that is missing gets its one screen. -/
theorem populates_iff_namesake : (paired namesake).Populates [⟨0, 0, 1920, 1080, true⟩] :=
  (populates_iff (by decide) ⟨rfl, rfl, rfl⟩ _).mpr (by decide)

/-- Two paired machines of different ids that are both called `laptop`. -/
def twoLaptops : BTreeMap String TrustedPeer :=
  ⟨[("b", ⟨"b", "laptop", "00", "aaaa-bbbb-cccc-dddd", 1700000000⟩),
    ("c", ⟨"c", "laptop", "01", "bbbb-cccc-dddd-eeee", 1700000001⟩)], by decide⟩

/-- One pass appends a screen for each of the two, and their names are the same. -/
theorem two_screens_of_one_name :
    ((paired twoLaptops).config.screens.map Screen.name).Nodup ∧ (paired twoLaptops).Reconciles ∧
      ((paired twoLaptops).reconcile []).config.screens.map Screen.name =
        ["this-machine", "laptop", "laptop"] ∧
      ¬ (((paired twoLaptops).reconcile []).config.screens.map Screen.name).Nodup :=
  ⟨by decide, ⟨rfl, rfl, rfl⟩, by decide, by decide⟩

end EditBuffer

end Synbad
