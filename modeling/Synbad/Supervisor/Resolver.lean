import Synbad.Config.Core
import Synbad.Ipc.LogParse
import Synbad.Lib.Run
import Synbad.Supervisor.Binaries

/-! # Resolving the Core

`ensure_upstream_core` of `binaries.rs`, for Linux: what the cache has is used as it is, and what it
does not have is downloaded, checked against its checksum, extracted next to the cache and renamed
into place. A tag is taken to be the name of one directory, and asking whether a file is there does
not itself fail (for `Path::exists` it would not be there). Every other operation may fail, and the
daemon may crash before each of them; the next daemon starts with the cache as it was left.

The invariant `Inv` says that whatever the cache finds is genuine: its files are those of a download
that was checked, extracted without failure. Which downloads were checked is a matter of the run:
`Known` collects what answers have shown, that an asset was picked of a release, that a checksum was
found for it, and that some bytes had that checksum, and `Picked`, `Expected` and `Checked` say so of
the answers before a step. The stages carry what has been found so far (`StageOk`), a staging
directory is what has been extracted so far (`Staged`), and putting it into place is one operation
(`moved`).

`cached_core_is_genuine` and `cached_core_stays` are the results, for every run: what is found is
genuine, and what has been found is never taken away. -/

namespace Synbad

namespace Binaries

/-! ## The release -/

/-- `ReleaseAsset`: a file of a release, and where it is downloaded from. -/
structure ReleaseAsset where
  name : String
  browserDownloadUrl : String
  deriving DecidableEq, Repr

/-- `LatestRelease`: what the query for the newest release answers. -/
structure LatestRelease where
  tagName : String
  assets : List ReleaseAsset
  deriving DecidableEq, Repr

/-- `DESKFLOW_TAG`: the release that is looked for in the cache first. -/
def deskflowTag : String := "v1.17.0"

/-- `layout_kind_for`: the pinned release has two binaries, any other one. -/
def layoutKindFor (tag : String) : LayoutKind := if tag = "v1.17.0" then .splitLegacy else .unified

/-- `known_asset_sha`: the checksums that are built in. -/
def knownAssetSha (name : String) : Option String :=
  if name = "deskflow-1.17.0.0-2_ubuntu_noble_amd64.deb" then
    some "4971d0f3b27804ef37aeccd18945985571556a22be35b83cb16d6acd28280de2"
  else if name = "deskflow-1.17.0.0_mac_x64.dmg" then
    some "64fc270052c31fe0843c1c1374ccfefe0d646bd7abf600ca3a9bd978dab4ed88"
  else if name = "deskflow-1.17.0.0_mac_arm64.dmg" then
    some "cf0421257bb5c1ae1c14ec1f470c119619527e0b1f1b7f9fa1e66213c6bc88f4"
  else none

/-- What to look for in the name of an asset, the first match first. -/
def assetNeedles (os arch : String) : Option (List String) :=
  match os, arch with
  | "linux", "x86_64" =>
      some ["_ubuntu_noble_amd64.deb", "_debian_trixie_amd64.deb", "debian-trixie-x86_64.deb",
        "ubuntu-resolute-x86_64.deb"]
  | "linux", "aarch64" => some ["debian-trixie-aarch64.deb", "ubuntu-resolute-aarch64.deb"]
  | "macos", "aarch64" => some ["_mac_arm64.dmg", "macos-arm64.dmg"]
  | "macos", "x86_64" => some ["_mac_x64.dmg", "macos-x86_64.dmg"]
  | "windows", "x86_64" => some ["win-x64-portable.7z"]
  | "windows", "aarch64" => some ["win-arm64-portable.7z"]
  | _, _ => none

/-- The first asset whose name contains the first needle that is in any. -/
def firstAsset (assets : List ReleaseAsset) : List String → Option ReleaseAsset
  | [] => none
  | n :: needles =>
      match assets.find? fun a => decide (n.toList <:+: a.name.toList) with
      | some a => some a
      | none => firstAsset assets needles

/-- `pick_asset`: the asset for this platform, or why there is none. -/
def pickAsset (unicode : UnicodeTables) (os arch : String) (assets : List ReleaseAsset) : Except String ReleaseAsset :=
  match assetNeedles os arch with
  | none =>
      .error ("no known deskflow release asset for " ++ os ++ "-" ++ arch ++
        "; set `binaries.core` in config.toml")
  | some needles =>
      match firstAsset assets needles with
      | some a => .ok a
      | none =>
          .error ("deskflow release has no asset matching any of [" ++
            ", ".intercalate (needles.map (debugStr unicode)) ++ "] for " ++ os ++ "-" ++ arch)

/-- `str::split_once`: the text before the first separator and the text behind it. -/
def splitOnce (sep : List Char) : List Char → Option (List Char × List Char)
  | [] => if sep.isEmpty then some ([], []) else none
  | c :: cs =>
      if sep.isPrefixOf (c :: cs) then some ([], (c :: cs).drop sep.length)
      else (splitOnce sep cs).map fun (before, rest) => (c :: before, rest)

/-- The checksum of an asset in `sums.txt`: that of the first line which names it. -/
def sumsSha (body target : String) : Option String :=
  (body.toList.splitOn '\n').findSome? fun line =>
    match splitOnce [' ', ' '] line with
    | none => none
    | some (sha, name) =>
        if LogParse.trim name = target.toList then some (String.ofList (LogParse.trim sha)) else none

/-- `fetch_expected_sha`, with what the request for `sums.txt` gave if there is one. -/
def fetchExpectedSha (assets : List ReleaseAsset) (target : String) (sums : Except String String) :
    Except String String :=
  match assets.find? fun a => a.name == "sums.txt" with
  | some _ =>
      match sums with
      | .error e => .error e
      | .ok body =>
          match sumsSha body target with
          | some sha => .ok sha
          | none => .error (target ++ " not listed in sums.txt")
  | none =>
      match knownAssetSha target with
      | some sha => .ok sha
      | none =>
          .error ("release has no sums.txt and " ++ target ++ " has no known hardcoded sha256")

/-- `verify_sha`: the digits of the checksum are compared without regard to case. -/
def verifySha (hex : HexCodec) (sha256 : Bytes → Bytes) (bytes : Bytes) (expectedHex : String) :
    Except String Unit :=
  let actualHex := hex.encode (sha256 bytes)
  if actualHex.toList.map Char.toLower = expectedHex.toList.map Char.toLower then .ok ()
  else .error ("sha256 mismatch: expected " ++ expectedHex ++ ", got " ++ actualHex)

/-! ## The resolver -/

/-- `Resolver`, with the platform and what other crates do for it: the checksum and its digits, and the
entries of the data archive of a package. -/
structure Resolver where
  cacheRoot : PathBuf
  os : String
  arch : String
  sha256 : Bytes → Bytes
  hex : HexCodec
  unpack : Bytes → Except String (List TarEntry)
  /-- The tables that the `{:?}` of its messages goes by. -/
  unicode : UnicodeTables

/-- A directory of the cache, as its files by their names. -/
abbrev CoreDir := String → Option DiskFile

/-- The directory a release is extracted to, next to the one it is renamed to. -/
def stagingName (tag : String) : String := tag ++ ".partial"

/-- `extract_core_binaries`, without the `sevenz` feature: a package of Debian is unpacked, and
anything else is refused. -/
def Resolver.extractCoreBinaries (r : Resolver) (opening : Option String) (answers : ℕ → EntryAnswers)
    (assetBytes : Bytes) (assetName : String) (destDir : PathBuf) (kind : LayoutKind) :
    List FileOp × Except String Unit :=
  if ".deb".toList.isSuffixOf assetName.toList then
    match r.unpack assetBytes with
    | .error e => ([], .error e)
    | .ok entries =>
        let (log, outcome) := tarExtractNamed opening answers entries (expectedTargets kind destDir)
        (log, outcome.mapError (ExtractError.message r.unicode))
  else if ".dmg".toList.isSuffixOf assetName.toList then ([], .error "DMG extraction is macOS-only")
  else if ".7z".toList.isSuffixOf assetName.toList then
    match kind with
    | .splitLegacy => ([], .error ("split-legacy layout has no .7z asset for " ++ assetName))
    | .unified =>
        ([], .error ("synbadd built without `sevenz` feature; rebuild with --features sevenz for " ++
          "Windows assets"))
  else ([], .error ("unsupported archive format: " ++ assetName))

/-- The files that a release of this layout has. -/
def coreNames : LayoutKind → List String
  | .unified => [unifiedBinName]
  | .splitLegacy => [legacyServerBin, legacyClientBin]

/-- Whether a file of a directory exists. -/
def fileExists (dirs : String → Option CoreDir) (tag name : String) : Bool :=
  ((dirs tag).bind fun dir => dir name).isSome

/-- `try_cached`: the release of this tag, if all files of its layout are there. -/
def Resolver.tryCached (r : Resolver) (dirs : String → Option CoreDir) (tag : String) :
    Option ResolvedCore :=
  let dir := join r.cacheRoot tag
  match layoutKindFor tag with
  | .unified =>
      if fileExists dirs tag unifiedBinName then some ⟨.unified (join dir unifiedBinName)⟩ else none
  | .splitLegacy =>
      if fileExists dirs tag legacyServerBin && fileExists dirs tag legacyClientBin then
        some ⟨.splitLegacy (join dir legacyServerBin) (join dir legacyClientBin)⟩
      else none

/-- Where a resolution stands, between two of its operations. -/
inductive ResolveStage where
  | idle
  | querying
  | summing (release : LatestRelease) (asset : ReleaseAsset)
  | downloading (tag : String) (asset : ReleaseAsset) (sha : String)
  /-- The download has the right checksum; what an earlier extraction has left is to be removed. -/
  | clearing (tag : String) (asset : ReleaseAsset) (bytes : Bytes)
  | making (tag : String) (asset : ReleaseAsset) (bytes : Bytes)
  | unpacking (tag : String) (asset : ReleaseAsset) (bytes : Bytes)
  | extracting (tag : String) (ops : List FileOp) (outcome : Except String Unit)
  | clearingOld (tag : String)
  | moving (tag : String)
  | resolved (tag : String) (core : ResolvedCore)
  | failed (e : String)

/-- The tag of which a resolution is under way at this stage. -/
def ResolveStage.under : ResolveStage → Option String
  | .summing release _ => some release.tagName
  | .downloading tag _ _ => some tag
  | .clearing tag _ _ => some tag
  | .making tag _ _ => some tag
  | .unpacking tag _ _ => some tag
  | .extracting tag _ _ => some tag
  | .clearingOld tag => some tag
  | .moving tag => some tag
  | _ => none

/-- The cache, directory by directory, and where the resolution stands. -/
structure ResolverState where
  dirs : String → Option CoreDir
  stage : ResolveStage

/-- What happens next: a request, an answer, a file operation, or a crash. -/
inductive ResolverInput where
  /-- `ensure_core`: a release is asked for. -/
  | ensure
  | release (answer : Except String LatestRelease)
  | sums (answer : Except String String)
  | download (answer : Except String Bytes)
  /-- `remove_dir_all`, which may fail and leave some of the files. -/
  | clear (left : Option (String → Bool))
  | makeDir (fails : Option String)
  | unpack (opening : Option String) (answers : ℕ → EntryAnswers)
  | fileOp
  | clearOld (left : Option (String → Bool))
  /-- The system may refuse, as it does when something is left at the destination. -/
  | rename (fails : Option String)
  | crash

/-- What `remove_dir_all` leaves of a directory: nothing, or the files that are named. -/
def removeDirAll (left : Option (String → Bool)) (dir : CoreDir) : Option CoreDir :=
  left.map fun left name => if left name then dir name else none

/-- The name of the file at a path. -/
def baseName (p : PathBuf) : String := String.ofList (p.components.2.getLast?.getD [])

namespace ResolverState

variable (r : Resolver) (s : ResolverState)

/-- A cached release is the answer; otherwise the resolution goes on. -/
def cachedOr (tag : String) (next : ResolverState) : ResolverState :=
  match r.tryCached s.dirs tag with
  | some core => { s with stage := .resolved tag core }
  | none => next

/-- The attempt fails, and says why. -/
def failWith (e : String) : ResolverState := { s with stage := .failed e }

/-- One step: the operation that comes next at this stage, with its outcome, or a crash. -/
def step (s : ResolverState) (input : ResolverInput) : ResolverState :=
  match s.stage, input with
  | _, .crash => { s with stage := .idle }
  | .idle, .ensure => s.cachedOr r deskflowTag { s with stage := .querying }
  | .resolved _ _, .ensure => s.cachedOr r deskflowTag { s with stage := .querying }
  | .failed _, .ensure => s.cachedOr r deskflowTag { s with stage := .querying }
  | .querying, .release (.error e) => s.failWith e
  | .querying, .release (.ok release) =>
      s.cachedOr r release.tagName
        (match pickAsset r.unicode r.os r.arch release.assets with
        | .error e => s.failWith e
        | .ok asset => { s with stage := .summing release asset })
  | .summing release asset, .sums answer =>
      match fetchExpectedSha release.assets asset.name answer with
      | .error e => s.failWith ("looking up sha256 for " ++ asset.name ++ ": " ++ e)
      | .ok sha => { s with stage := .downloading release.tagName asset sha }
  | .downloading _ _ _, .download (.error e) => s.failWith e
  | .downloading tag asset sha, .download (.ok bytes) =>
      match verifySha r.hex r.sha256 bytes sha with
      | .error e => s.failWith ("integrity check failed for " ++ asset.name ++ ": " ++ e)
      | .ok () => { s with stage := .clearing tag asset bytes }
  | .clearing tag asset bytes, .clear left =>
      { s with
        dirs := Function.update s.dirs (stagingName tag)
          ((s.dirs (stagingName tag)).bind (removeDirAll left))
        stage := .making tag asset bytes }
  | .making _ _ _, .makeDir (some e) => s.failWith e
  | .making tag asset bytes, .makeDir none =>
      { s with
        dirs := Function.update s.dirs (stagingName tag)
          (some ((s.dirs (stagingName tag)).getD fun _ => none))
        stage := .unpacking tag asset bytes }
  | .unpacking tag asset bytes, .unpack opening answers =>
      let (ops, outcome) := r.extractCoreBinaries opening answers bytes asset.name
        (join r.cacheRoot (stagingName tag)) (layoutKindFor tag)
      { s with stage := .extracting tag ops outcome }
  | .extracting tag (op :: ops) outcome, .fileOp =>
      { s with
        dirs := Function.update s.dirs (stagingName tag)
          ((s.dirs (stagingName tag)).map fun dir => op.apply baseName dir)
        stage := .extracting tag ops outcome }
  | .extracting _ [] (.error e), .fileOp => s.failWith e
  | .extracting tag [] (.ok ()), .fileOp => { s with stage := .clearingOld tag }
  | .clearingOld tag, .clearOld left =>
      { s with
        dirs := Function.update s.dirs tag ((s.dirs tag).bind (removeDirAll left))
        stage := .moving tag }
  | .moving _, .rename (some e) => s.failWith e
  | .moving tag, .rename none =>
      let moved : ResolverState :=
        { s with
          dirs := Function.update (Function.update s.dirs tag (s.dirs (stagingName tag)))
            (stagingName tag) none }
      moved.cachedOr r tag (moved.failWith
        ("extraction succeeded but expected files are missing under " ++
          debugStr r.unicode (join r.cacheRoot tag).text))
  | _, _ => s

/-- The daemon on its first start: nothing is cached. -/
def start : ResolverState := ⟨fun _ => none, .idle⟩

end ResolverState

/-! ## The files of a release -/

/-- The last component of a name in a directory is the name. -/
theorem baseName_join {dir : PathBuf} {name : String} (hslash : '/' ∉ name.toList)
    (hempty : name.toList ≠ []) (hdot : name.toList ≠ ['.']) : baseName (join dir name) = name := by
  rw [baseName, components_join hslash hempty hdot, Option.getD_some, String.ofList_toList]

/-- The targets of a release are its files, each under its own name. -/
theorem mem_expectedTargets {kind : LayoutKind} (dir : PathBuf) {name : String}
    (h : name ∈ coreNames kind) : ∃ t ∈ expectedTargets kind dir, t.1 = name ∧ baseName t.2 = name := by
  cases kind with
  | unified =>
      rw [List.mem_singleton.mp h]
      exact ⟨_, List.mem_singleton.mpr rfl, rfl, baseName_join (by decide) (by decide) (by decide)⟩
  | splitLegacy =>
      rcases List.mem_cons.mp h with rfl | h
      · exact ⟨_, List.mem_cons_self, rfl, baseName_join (by decide) (by decide) (by decide)⟩
      · rw [List.mem_singleton.mp h]
        exact ⟨_, List.mem_cons_of_mem _ (List.mem_singleton.mpr rfl), rfl,
          baseName_join (by decide) (by decide) (by decide)⟩

/-- The names of the targets are distinct, and so are their files. -/
theorem expectedTargets_baseNames (kind : LayoutKind) (dir : PathBuf) :
    ((expectedTargets kind dir).map (·.1)).Nodup ∧
      ((expectedTargets kind dir).map fun t => baseName t.2).Nodup := by
  refine ⟨(expectedTargets_distinct kind dir).1, ?_⟩
  cases kind with
  | unified => exact List.nodup_singleton _
  | splitLegacy =>
      have hserver : baseName (join dir legacyServerBin) = legacyServerBin :=
        baseName_join (by decide) (by decide) (by decide)
      have hclient : baseName (join dir legacyClientBin) = legacyClientBin :=
        baseName_join (by decide) (by decide) (by decide)
      show [baseName (join dir legacyServerBin), baseName (join dir legacyClientBin)].Nodup
      rw [hserver, hclient]
      decide

/-- **What the cache finds** is there in full: the release is found exactly if every file of its
layout exists. -/
theorem tryCached_isSome_iff {r : Resolver} {dirs : String → Option CoreDir} {tag : String} :
    (r.tryCached dirs tag).isSome = true ↔
      ∀ name ∈ coreNames (layoutKindFor tag), fileExists dirs tag name = true := by
  unfold Resolver.tryCached coreNames
  cases layoutKindFor tag with
  | unified =>
      simp only [List.mem_singleton, forall_eq]
      split
      · next h => exact ⟨fun _ => h, fun _ => rfl⟩
      · next h => exact ⟨nofun, fun h' => absurd h' h⟩
  | splitLegacy =>
      simp only [List.mem_cons, List.not_mem_nil, or_false, forall_eq_or_imp, forall_eq]
      rw [← Bool.and_eq_true]
      split
      · next h => exact ⟨fun _ => h, fun _ => rfl⟩
      · next h => exact ⟨nofun, fun h' => absurd h' h⟩

/-- **The checksum is right** if it is the one that is expected, whatever the case of its digits. -/
theorem verifySha_ok_iff {hex : HexCodec} {sha256 : Bytes → Bytes} {bytes : Bytes}
    {expectedHex : String} : verifySha hex sha256 bytes expectedHex = .ok () ↔
      (hex.encode (sha256 bytes)).toList.map Char.toLower = expectedHex.toList.map Char.toLower := by
  unfold verifySha
  dsimp only
  split
  · next h => exact ⟨fun _ => h, fun _ => rfl⟩
  · next h => exact ⟨nofun, fun h' => absurd h' h⟩

/-- What the answers so far have shown: that this asset was picked of a release, that this checksum was
found for an asset of a release, and that this download of a release has the checksum found for it. -/
structure Known where
  picked : LatestRelease → ReleaseAsset → Prop
  expected : String → ReleaseAsset → String → Prop
  checked : String → Bytes → Prop

/-- The directory holds the files of a download whose checksum was right, each the body of the first
entry that is for it, and executable. -/
structure Genuine (r : Resolver) (known : Known) (tag : String) (dir : CoreDir)
    (bytes : Bytes) (entries : List TarEntry) : Prop where
  checked : known.checked tag bytes
  unpacked : r.unpack bytes = .ok entries
  holds : ∀ name ∈ coreNames (layoutKindFor tag), ∃ e,
    entries.find? (·.isFor name) = some e ∧ dir name = some ⟨e.body, 0o755⟩

/-- An extraction that succeeds writes every target, whatever was there before. -/
theorem tarExtractNamed_ok {κ : Type*} [DecidableEq κ] {names : PathBuf → κ} {opening : Option String}
    {answers : ℕ → EntryAnswers} {entries : List TarEntry} {targets : List Target} {log : List FileOp}
    (hnames : (targets.map (·.1)).Nodup) (hdests : (targets.map fun t => names t.2).Nodup)
    (h : tarExtractNamed opening answers entries targets = (log, .ok ())) :
    ∀ t ∈ targets, ∃ e, entries.find? (·.isFor t.1) = some e ∧
      ∀ files, replay names files log (names t.2) = some ⟨e.body, 0o755⟩ := by
  intro t ht
  cases opening with
  | some e => cases h
  | none =>
      cases hloop : extractEntries answers 0 entries targets with
      | mk log' outcome =>
          cases outcome with
          | error e =>
              rw [tarExtractNamed, hloop] at h
              cases h
          | ok left =>
              have hexact := tarExtractNamed_of_loop hnames hdests hloop
              rw [h] at hexact
              obtain ⟨e, he, hfor⟩ := hexact.ok_iff.mp rfl t ht
              have hfound : entries.find? (·.isFor t.1) ≠ none := by
                intro hnone
                have hnot := List.find?_eq_none.mp hnone e he
                rw [TarEntry.isFor, hfor.1, hfor.2, Bool.true_and, beq_self_eq_true] at hnot
                exact hnot rfl
              obtain ⟨first, hfirst⟩ := Option.ne_none_iff_exists'.mp hfound
              exact ⟨first, hfirst, hexact.found t ht first hfirst⟩

/-- **An extraction that succeeds** leaves a directory with the files of the archive. -/
theorem extractCoreBinaries_ok {r : Resolver} {opening : Option String} {answers : ℕ → EntryAnswers}
    {bytes : Bytes} {name : String} {dir : PathBuf} {kind : LayoutKind} {ops : List FileOp}
    (h : r.extractCoreBinaries opening answers bytes name dir kind = (ops, .ok ())) :
    ∃ entries, r.unpack bytes = .ok entries ∧ ∀ n ∈ coreNames kind, ∃ e,
      entries.find? (·.isFor n) = some e ∧ ∀ files, replay baseName files ops n = some ⟨e.body, 0o755⟩ := by
  unfold Resolver.extractCoreBinaries at h
  split at h
  · split at h
    · cases h
    · next entries hunpack =>
      refine ⟨entries, hunpack, fun n hn => ?_⟩
      -- one target for each name, and no two with one destination
      obtain ⟨hnames, hdests⟩ := expectedTargets_baseNames kind dir
      obtain ⟨t, ht, rfl, hbase⟩ := mem_expectedTargets dir hn
      cases htar : tarExtractNamed opening answers entries (expectedTargets kind dir) with
      | mk log outcome =>
          rw [htar] at h
          cases outcome with
          | error e => cases h
          | ok u =>
              obtain ⟨rfl, -⟩ := Prod.mk.inj h
              obtain ⟨e, he, hholds⟩ := tarExtractNamed_ok hnames hdests htar t ht
              refine ⟨e, he, fun files => ?_⟩
              rw [← hholds files, hbase]
  · split at h
    · cases h
    · split at h
      · split at h
        · cases h
        · cases h
      · cases h

/-! ## The invariant -/

variable {r : Resolver} {dirs : String → Option CoreDir} {known known' : Known} {tag : String}

/-- No tag is its own staging directory. -/
theorem stagingName_ne (tag : String) : tag ≠ stagingName tag := by
  intro h
  have hlength := congrArg String.length h
  rw [stagingName, String.length_append] at hlength
  have hpartial : ".partial".length = 8 := rfl
  omega

/-- What is known stays known, as more answers come in. -/
structure Known.Le (known known' : Known) : Prop where
  picked : ∀ release asset, known.picked release asset → known'.picked release asset
  expected : ∀ tag asset sha, known.expected tag asset sha → known'.expected tag asset sha
  checked : ∀ tag bytes, known.checked tag bytes → known'.checked tag bytes

/-- A cache entry that is genuine stays so as more is known. -/
theorem Genuine.mono {dir : CoreDir} {bytes : Bytes} {entries : List TarEntry}
    (h : Genuine r known tag dir bytes entries) (hle : known.Le known') :
    Genuine r known' tag dir bytes entries :=
  ⟨hle.checked tag bytes h.checked, h.unpacked, h.holds⟩

/-- What the cache finds of a release is in the directory of that release. -/
theorem tryCached_update_of_ne {other : String} (h : tag ≠ other) (dir : Option CoreDir) :
    r.tryCached (Function.update dirs other dir) tag = r.tryCached dirs tag := by
  have hexists : ∀ name, fileExists (Function.update dirs other dir) tag name = fileExists dirs tag name := by
    intro name
    rw [fileExists, Function.update_of_ne h, fileExists]
  simp only [Resolver.tryCached, hexists]

/-- A removal brings nothing back, however far it gets. -/
theorem tryCached_remove (left : Option (String → Bool)) (h : r.tryCached dirs tag = none) :
    r.tryCached (Function.update dirs tag ((dirs tag).bind (removeDirAll left))) tag = none := by
  rw [← Option.not_isSome_iff_eq_none] at h ⊢
  rw [tryCached_isSome_iff] at h ⊢
  refine fun hall => h fun name hname => ?_
  have hleft := hall name hname
  rw [fileExists, Function.update_self] at hleft
  rw [fileExists]
  cases hdir : dirs tag with
  | none =>
      rw [hdir] at hleft
      exact absurd hleft Bool.false_ne_true
  | some dir =>
      cases left with
      | none =>
          rw [hdir] at hleft
          exact absurd hleft Bool.false_ne_true
      | some left =>
          simp only [hdir, removeDirAll, Option.map_some, Option.bind_some] at hleft ⊢
          split at hleft
          · exact hleft
          · exact absurd hleft Bool.false_ne_true

/-- The staging directory holds a release, as far as it has been extracted. -/
def Staged (r : Resolver) (dirs : String → Option CoreDir) (known : Known) (tag : String)
    (ops : List FileOp) : Prop :=
  ∃ dir bytes entries, dirs (stagingName tag) = some dir ∧
    Genuine r known tag (replay baseName dir ops) bytes entries

/-- What is known at each stage; a release that is being fetched is not in the cache. -/
def StageOk (r : Resolver) (dirs : String → Option CoreDir) (known : Known) : ResolveStage → Prop
  | .summing release asset => r.tryCached dirs release.tagName = none ∧ known.picked release asset
  | .downloading tag asset sha => r.tryCached dirs tag = none ∧ known.expected tag asset sha
  | .clearing tag _ bytes => r.tryCached dirs tag = none ∧ known.checked tag bytes
  | .making tag _ bytes => r.tryCached dirs tag = none ∧ known.checked tag bytes
  | .unpacking tag _ bytes =>
      r.tryCached dirs tag = none ∧ known.checked tag bytes ∧ (dirs (stagingName tag)).isSome = true
  | .extracting tag ops outcome =>
      r.tryCached dirs tag = none ∧ (outcome = .ok () → Staged r dirs known tag ops)
  | .clearingOld tag => r.tryCached dirs tag = none ∧ Staged r dirs known tag []
  | .moving tag => r.tryCached dirs tag = none ∧ Staged r dirs known tag []
  | .resolved tag core => r.tryCached dirs tag = some core
  | _ => True

/-- What is staged is genuine as more is known. -/
theorem Staged.mono {ops : List FileOp} (h : Staged r dirs known tag ops) (hle : known.Le known') :
    Staged r dirs known' tag ops := by
  obtain ⟨dir, bytes, entries, hdir, hgenuine⟩ := h
  exact ⟨dir, bytes, entries, hdir, hgenuine.mono hle⟩

/-- A stage that is in order stays so as more is known. -/
theorem StageOk.mono {stage : ResolveStage} (h : StageOk r dirs known stage) (hle : known.Le known') :
    StageOk r dirs known' stage := by
  cases stage with
  | summing release asset => exact ⟨h.1, hle.picked _ _ h.2⟩
  | downloading tag asset sha => exact ⟨h.1, hle.expected _ _ _ h.2⟩
  | clearing tag asset bytes => exact ⟨h.1, hle.checked _ _ h.2⟩
  | making tag asset bytes => exact ⟨h.1, hle.checked _ _ h.2⟩
  | unpacking tag asset bytes => exact ⟨h.1, hle.checked _ _ h.2.1, h.2.2⟩
  | extracting tag ops outcome => exact ⟨h.1, fun hok => (h.2 hok).mono hle⟩
  | clearingOld tag => exact ⟨h.1, h.2.mono hle⟩
  | moving tag => exact ⟨h.1, h.2.mono hle⟩
  | resolved tag core => exact h
  | idle | querying | failed => trivial

/-- A release that is being fetched is not in the cache. -/
theorem StageOk.fresh {stage : ResolveStage} (h : StageOk r dirs known stage)
    (hunder : stage.under = some tag) : r.tryCached dirs tag = none := by
  cases stage with
  | summing | downloading | clearing | making | unpacking | extracting | clearingOld | moving =>
      cases hunder
      exact h.1
  | idle | querying | resolved | failed => cases hunder

namespace ResolverState

/-- A directory that is a release's own, not one to extract to. -/
def Own (tag : String) : Prop := ∀ other, tag ≠ stagingName other

/-- The pinned tag is the name of a release's own directory. -/
theorem own_deskflowTag : Own deskflowTag := by
  intro other heq
  have hlast := congrArg (fun s : String => s.toList.getLast?) heq
  simp only [stagingName, String.toList_append] at hlast
  rw [List.getLast?_append, show ".partial".toList.getLast? = some 'l' by decide, Option.some_or] at hlast
  exact absurd hlast (by decide)

/-- **What the cache finds is genuine**, and what is under way has got as far as its stage says. -/
structure Inv (r : Resolver) (known : Known) (s : ResolverState) : Prop where
  cached : ∀ tag, Own tag → (r.tryCached s.dirs tag).isSome = true →
    ∃ dir bytes entries, s.dirs tag = some dir ∧ Genuine r known tag dir bytes entries
  stage : StageOk r s.dirs known s.stage

/-- What this input shows in this state, if it is an answer that is waited for: the asset that is picked of
a release, the checksum that is found for one, or that the checksum of a download is right. -/
structure Shows (r : Resolver) (s : ResolverState) (input : ResolverInput) (known : Known) : Prop where
  picked : ∀ release asset, s.stage = .querying → input = .release (.ok release) →
    pickAsset r.unicode r.os r.arch release.assets = .ok asset → known.picked release asset
  expected : ∀ release asset sums sha, s.stage = .summing release asset → known.picked release asset →
    input = .sums sums → fetchExpectedSha release.assets asset.name sums = .ok sha →
      known.expected release.tagName asset sha
  checked : ∀ tag asset sha bytes, s.stage = .downloading tag asset sha → known.expected tag asset sha →
    input = .download (.ok bytes) → verifySha r.hex r.sha256 bytes sha = .ok () → known.checked tag bytes

variable {s : ResolverState}

namespace Inv

/-- Before the first attempt all is in order, as there is nothing. -/
theorem start (r : Resolver) (known : Known) : Inv r known start where
  cached tag _ hcached := by
    rw [tryCached_isSome_iff] at hcached
    have hnone : ∀ name, fileExists ResolverState.start.dirs tag name = false := fun _ => rfl
    cases hkind : layoutKindFor tag with
    | unified =>
        have hfile := hcached unifiedBinName (by rw [hkind]; exact List.mem_singleton.mpr rfl)
        rw [hnone] at hfile
        cases hfile
    | splitLegacy =>
        have hfile := hcached legacyServerBin (by rw [hkind]; exact List.mem_cons_self)
        rw [hnone] at hfile
        cases hfile
  stage := trivial

/-- What is in order stays so as more is known. -/
theorem mono (h : s.Inv r known) (hle : known.Le known') : s.Inv r known' where
  cached own hown hcached := by
    obtain ⟨dir, bytes, entries, hdir, hgenuine⟩ := h.cached own hown hcached
    exact ⟨dir, bytes, entries, hdir, hgenuine.mono hle⟩
  stage := h.stage.mono hle

/-- The stage changes, and nothing else; the invariant needs what the new stage says. -/
theorem goTo (h : s.Inv r known) {stage : ResolveStage} (hstage : StageOk r s.dirs known stage) :
    Inv r known { s with stage := stage } :=
  ⟨h.cached, hstage⟩

/-- A look at the cache before a step keeps order, if the step does. -/
theorem cachedOr (h : s.Inv r known) (tag : String) {next : ResolverState}
    (hnext : r.tryCached s.dirs tag = none → next.Inv r known) : (s.cachedOr r tag next).Inv r known := by
  unfold ResolverState.cachedOr
  split
  · next core hcore => exact h.goTo hcore
  · next hnone => exact hnext hnone

/-- A staging directory changes, which is no release's own; the invariant needs what the new stage
says. -/
theorem stagingDir (h : s.Inv r known) (tag : String) (dir : Option CoreDir) {stage : ResolveStage}
    (hstage : StageOk r (Function.update s.dirs (stagingName tag) dir) known stage) :
    Inv r known { s with dirs := Function.update s.dirs (stagingName tag) dir, stage := stage } where
  cached own hown hcached := by
    rw [tryCached_update_of_ne (hown tag)] at hcached
    obtain ⟨dir', bytes, entries, hdir, hgenuine⟩ := h.cached own hown hcached
    exact ⟨dir', bytes, entries, (Function.update_of_ne (hown tag) _ _).trans hdir, hgenuine⟩
  stage := hstage

/-- **An operation of the extraction** leaves as much to be done as there is. -/
theorem fileOp (h : s.Inv r known) {op : FileOp} {ops : List FileOp} {outcome : Except String Unit}
    (hstage : s.stage = .extracting tag (op :: ops) outcome) :
    Inv r known { s with
      dirs := Function.update s.dirs (stagingName tag)
        ((s.dirs (stagingName tag)).map fun dir => op.apply baseName dir)
      stage := .extracting tag ops outcome } := by
  have hok := h.stage
  rw [hstage] at hok
  refine h.stagingDir tag _ ⟨?_, fun houtcome => ?_⟩
  · rw [tryCached_update_of_ne (stagingName_ne tag)]
    exact hok.1
  · obtain ⟨dir, bytes, entries, hdir, hgenuine⟩ := hok.2 houtcome
    refine ⟨op.apply baseName dir, bytes, entries, ?_, hgenuine⟩
    rw [Function.update_self, hdir, Option.map_some]

/-- **The old directory goes**: it was of no use. -/
theorem clearOld (h : s.Inv r known) (hstage : s.stage = .clearingOld tag) (left : Option (String → Bool)) :
    Inv r known { s with
      dirs := Function.update s.dirs tag ((s.dirs tag).bind (removeDirAll left))
      stage := .moving tag } := by
  have hok := h.stage
  rw [hstage] at hok
  have hgone := tryCached_remove left hok.1
  refine ⟨fun own hown hcached => ?_, hgone, ?_⟩
  · by_cases heq : own = tag
    · -- it was not in the cache, and is not now
      subst heq
      rw [hgone] at hcached
      cases hcached
    · rw [tryCached_update_of_ne heq] at hcached
      obtain ⟨dir, bytes, entries, hdir, hgenuine⟩ := h.cached own hown hcached
      exact ⟨dir, bytes, entries, (Function.update_of_ne heq _ _).trans hdir, hgenuine⟩
  · obtain ⟨dir, bytes, entries, hdir, hgenuine⟩ := hok.2
    exact ⟨dir, bytes, entries, (Function.update_of_ne (stagingName_ne tag).symm _ _).trans hdir, hgenuine⟩

/-- **The release is put into place** in one operation. -/
theorem moved (h : s.Inv r known) (hstage : s.stage = .moving tag) {stage : ResolveStage}
    (hstage' : StageOk r (Function.update (Function.update s.dirs tag (s.dirs (stagingName tag)))
      (stagingName tag) none) known stage) :
    Inv r known { s with
      dirs := Function.update (Function.update s.dirs tag (s.dirs (stagingName tag))) (stagingName tag) none
      stage := stage } := by
  have hok := h.stage
  rw [hstage] at hok
  refine ⟨fun own hown hcached => ?_, hstage'⟩
  obtain ⟨dir, bytes, entries, hdir, hgenuine⟩ := hok.2
  by_cases heq : own = tag
  · subst heq
    refine ⟨dir, bytes, entries, ?_, hgenuine⟩
    show Function.update (Function.update s.dirs own _) (stagingName own) none own = _
    rw [Function.update_of_ne (hown own), Function.update_self]
    exact hdir
  · rw [tryCached_update_of_ne (hown tag), tryCached_update_of_ne heq] at hcached
    obtain ⟨dir', bytes', entries', hdir', hgenuine'⟩ := h.cached own hown hcached
    refine ⟨dir', bytes', entries', ?_, hgenuine'⟩
    show Function.update (Function.update s.dirs tag _) (stagingName tag) none own = _
    rw [Function.update_of_ne (hown tag), Function.update_of_ne heq]
    exact hdir'

/-- **Every step** keeps it, a crash among them, if what the step shows is known. -/
theorem step (h : s.Inv r known) {input : ResolverInput} (hshows : Shows r s input known) : (s.step r input).Inv r known := by
  have hok := h.stage
  unfold ResolverState.step
  -- the cases are those of `step`, in its order
  split
  · exact h.goTo trivial
  · exact h.cachedOr _ fun _ => h.goTo trivial
  · exact h.cachedOr _ fun _ => h.goTo trivial
  · exact h.cachedOr _ fun _ => h.goTo trivial
  · exact h.goTo trivial
  -- the release is known
  · refine h.cachedOr _ fun hnone => ?_
    split
    · exact h.goTo trivial
    · next hasset => exact h.goTo ⟨hnone, hshows.picked _ _ ‹_› rfl hasset⟩
  -- the checksum is known
  · next answer hstage =>
    rw [hstage] at hok
    split
    · exact h.goTo trivial
    · next hsha => exact h.goTo ⟨hok.1, hshows.expected _ _ answer _ hstage hok.2 rfl hsha⟩
  · exact h.goTo trivial
  -- the download is there, and used if its checksum is right
  · next bytes hstage =>
    rw [hstage] at hok
    split
    · exact h.goTo trivial
    · next hsha => exact h.goTo ⟨hok.1, hshows.checked _ _ _ bytes hstage hok.2 rfl hsha⟩
  -- the staging directory is cleared, and made
  · next hstage =>
    rw [hstage] at hok
    refine h.stagingDir _ _ ⟨?_, hok.2⟩
    rw [tryCached_update_of_ne (stagingName_ne _)]
    exact hok.1
  · exact h.goTo trivial
  · next hstage =>
    rw [hstage] at hok
    refine h.stagingDir _ _ ⟨?_, hok.2, ?_⟩
    · rw [tryCached_update_of_ne (stagingName_ne _)]
      exact hok.1
    · rw [Function.update_self]
      rfl
  -- what the extraction will have written, whatever is in the directory
  · next opening answers hstage =>
    rw [hstage] at hok
    obtain ⟨hfresh, hchecked, hmade⟩ := hok
    refine h.goTo ⟨hfresh, fun houtcome => ?_⟩
    obtain ⟨dir, hdir⟩ := Option.isSome_iff_exists.mp hmade
    obtain ⟨entries, hunpack, hholds⟩ := extractCoreBinaries_ok (Prod.ext rfl houtcome)
    refine ⟨dir, _, entries, hdir, hchecked, hunpack, fun name hname => ?_⟩
    obtain ⟨e, he, hfile⟩ := hholds name hname
    exact ⟨e, he, hfile dir⟩
  · next hstage => exact h.fileOp hstage
  · exact h.goTo trivial
  · next hstage =>
    rw [hstage] at hok
    exact h.goTo ⟨hok.1, hok.2 rfl⟩
  · next hstage => exact h.clearOld hstage _
  · exact h.goTo trivial
  -- the rename, after which the files are looked for
  · next hstage =>
    simp only [ResolverState.cachedOr]
    split
    · next hcore => exact h.moved hstage hcore
    · exact h.moved hstage trivial
  · exact h

end Inv

/-! ## The results -/

section Run

variable (r : Resolver) (inputs : List ResolverInput) (n : ℕ)

/-- Before step `n` the query for the newest release was answered with this one, and this is the asset for
this platform. -/
def Picked (release : LatestRelease) (asset : ReleaseAsset) : Prop :=
  ∃ i < n, (Run.after (step r) start inputs i).stage = .querying ∧
    inputs[i]? = some (.release (.ok release)) ∧ pickAsset r.unicode r.os r.arch release.assets = .ok asset

/-- Before step `n` this asset was picked of a release with this tag, and this is its checksum: by the
answer to the request for the release's list, or by the table here. -/
def Expected (tag : String) (asset : ReleaseAsset) (sha : String) : Prop :=
  ∃ i < n, ∃ release sums, Picked r inputs i release asset ∧ release.tagName = tag ∧
    (Run.after (step r) start inputs i).stage = .summing release asset ∧
    inputs[i]? = some (.sums sums) ∧ fetchExpectedSha release.assets asset.name sums = .ok sha

/-- **The download is checked**: before step `n` these bytes were the answer to the download of the asset
that was picked of a release with this tag, and they have the checksum that was found for that asset, but
for the case of its digits. -/
def Checked (tag : String) (bytes : Bytes) : Prop :=
  ∃ i < n, ∃ asset sha, Expected r inputs i tag asset sha ∧
    (Run.after (step r) start inputs i).stage = .downloading tag asset sha ∧
    inputs[i]? = some (.download (.ok bytes)) ∧
    (r.hex.encode (r.sha256 bytes)).toList.map Char.toLower = sha.toList.map Char.toLower

/-- What the answers before step `n` of this run have shown. -/
def knownAt : Known := ⟨Picked r inputs n, Expected r inputs n, Checked r inputs n⟩

variable {r inputs n}

/-- What the run has answered so far is not forgotten. -/
theorem known_le : (knownAt r inputs n).Le (knownAt r inputs (n + 1)) where
  picked _ _ := fun ⟨i, hi, h⟩ => ⟨i, Nat.lt_succ_of_lt hi, h⟩
  expected _ _ _ := fun ⟨i, hi, h⟩ => ⟨i, Nat.lt_succ_of_lt hi, h⟩
  checked _ _ := fun ⟨i, hi, h⟩ => ⟨i, Nat.lt_succ_of_lt hi, h⟩

/-- What an input shows is known after it, by the definition of what this run has shown. -/
theorem shows_known (h : (Run.after (step r) start inputs n).Inv r (knownAt r inputs n))
    {input : ResolverInput} (hinput : inputs[n]? = some input) :
    Shows r (Run.after (step r) start inputs n) input (knownAt r inputs (n + 1)) := by
  have hok := h.stage
  refine ⟨fun release asset hstage heq hasset => ?_, fun release asset sums sha hstage _ heq hsha => ?_,
    fun tag asset sha bytes hstage _ heq hsha => ?_⟩
  · exact ⟨n, Nat.lt_succ_self n, hstage, by rw [hinput, heq], hasset⟩
  · rw [hstage] at hok
    exact ⟨n, Nat.lt_succ_self n, release, sums, hok.2, rfl, hstage, by rw [hinput, heq], hsha⟩
  · rw [hstage] at hok
    exact ⟨n, Nat.lt_succ_self n, asset, sha, hok.2, hstage, by rw [hinput, heq],
      verifySha_ok_iff.mp hsha⟩

/-- In every run the resolver is in order. -/
theorem run_inv (r : Resolver) (inputs : List ResolverInput) (n : ℕ) :
    (Run.after (step r) start inputs n).Inv r (knownAt r inputs n) := by
  induction n with
  | zero => exact .start r _
  | succ n ih =>
      cases hinput : inputs[n]? with
      | none =>
          rw [Run.after_succ_none hinput]
          exact ih.mono known_le
      | some input =>
          rw [Run.after_succ hinput]
          exact (ih.mono known_le).step (shows_known ih hinput)

end Run

/-- What the cache finds, and what is handed out, are the files of a download that was checked in this
run. -/
def Trusted (r : Resolver) (known : Known) (s : ResolverState) : Prop :=
  ∀ tag, Own tag → ∀ core, r.tryCached s.dirs tag = some core ∨ s.stage = .resolved tag core →
    ∃ dir bytes entries, s.dirs tag = some dir ∧ Genuine r known tag dir bytes entries

/-- **What the cache holds is genuine**, in every run: whatever fails, and wherever the daemon crashes, a
release that is found is complete, and its files are those of a download of the run that has the checksum
which the answers of the run, or the table here, gave for it. -/
theorem cached_core_is_genuine (r : Resolver) (inputs : List ResolverInput) (n : ℕ) :
    (Run.after (step r) start inputs n).Trusted r (knownAt r inputs n) := by
  have h := run_inv r inputs n
  intro tag hown core hcore
  have hcached : r.tryCached (Run.after (step r) start inputs n).dirs tag = some core := by
    rcases hcore with hcore | hstage
    · exact hcore
    · have hok := h.stage
      rw [hstage] at hok
      exact hok
  exact h.cached tag hown (by rw [hcached]; rfl)

/-- A step leaves a release that is in the cache alone. -/
theorem step_dirs (h : s.Inv r known) (hown : Own tag) (hcached : (r.tryCached s.dirs tag).isSome = true)
    (input : ResolverInput) : (s.step r input).dirs tag = s.dirs tag := by
  -- nothing is made under the name of a release that is in the cache
  have hother : ∀ other, s.stage.under = some other → tag ≠ other := by
    rintro other hunder rfl
    rw [h.stage.fresh hunder] at hcached
    cases hcached
  have hsame : ∀ (other : String) (next : ResolverState), next.dirs tag = s.dirs tag →
      (s.cachedOr r other next).dirs tag = s.dirs tag := by
    intro other next hnext
    unfold cachedOr
    split
    · rfl
    · exact hnext
  -- of the stages only three write a directory, and none of them that of this release
  unfold step
  split
  · rfl
  · exact hsame _ _ rfl
  · exact hsame _ _ rfl
  · exact hsame _ _ rfl
  · rfl
  · refine hsame _ _ ?_
    split <;> rfl
  · split <;> rfl
  · rfl
  · split <;> rfl
  · exact Function.update_of_ne (hown _) _ _
  · rfl
  · exact Function.update_of_ne (hown _) _ _
  · rfl
  · exact Function.update_of_ne (hown _) _ _
  · rfl
  · rfl
  · next hstage => exact Function.update_of_ne (hother _ (by rw [hstage]; rfl)) _ _
  · rfl
  · next other hstage =>
    have hmoved : Function.update (Function.update s.dirs other (s.dirs (stagingName other)))
        (stagingName other) none tag = s.dirs tag := by
      rw [Function.update_of_ne (hown other), Function.update_of_ne (hother other (by rw [hstage]; rfl))]
    simp only [cachedOr]
    split
    · exact hmoved
    · exact hmoved
  · rfl

/-- A release that is in the cache at some point of a run is there, unchanged, at every later one. -/
def Stays (r : Resolver) (inputs : List ResolverInput) (tag : String) : Prop :=
  ∀ n m, n ≤ m → (r.tryCached (Run.after (step r) start inputs n).dirs tag).isSome = true →
    (Run.after (step r) start inputs m).dirs tag = (Run.after (step r) start inputs n).dirs tag

/-- The cache finds the same in the same directory. -/
theorem tryCached_congr {dirs' : String → Option CoreDir} (h : dirs' tag = dirs tag) :
    r.tryCached dirs' tag = r.tryCached dirs tag := by
  have hexists : ∀ name, fileExists dirs' tag name = fileExists dirs tag name := by
    intro name
    rw [fileExists, h, fileExists]
  simp only [Resolver.tryCached, hexists]

/-- **What is cached stays**, in every run: no later attempt, failure or crash takes a release away. -/
theorem cached_core_stays (r : Resolver) (inputs : List ResolverInput) (tag : {tag : String // Own tag}) :
    Stays r inputs tag := by
  intro n m hnm hcached
  induction hnm with
  | refl => rfl
  | @step m _ ih =>
      have h := run_inv r inputs m
      cases hinput : inputs[m]? with
      | none =>
          rw [Run.after_succ_none hinput]
          exact ih
      | some input =>
          rw [Run.after_succ hinput, step_dirs h tag.property _ input, ih]
          rw [tryCached_congr ih]
          exact hcached

end ResolverState

end Binaries

end Synbad
