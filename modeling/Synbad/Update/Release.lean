import Mathlib.Order.Lattice
import Synbad.Ipc.LogParse

/-! # The release to update to

`is_newer`, `check` and `pick_asset` of `synbad-update/src/lib.rs`: of the releases that are listed
the newest published one is offered, with the archive for this machine, and it can be installed if it
is newer than what runs. Versions are those of the `semver` crate: a linear order and a way to read
them, both parameters.

A release may be a draft, or have a tag that is no version, and then it is passed over; the list may
be in any order and may name a version twice. `Offer` says what an offer is in terms of the list
alone, and `check_ok` that a check that succeeds makes one. If the newest release has no archive for
this machine the check fails, and an older one is not offered in its place. -/

namespace Synbad

namespace Update

/-! ## The source -/

/-- `GhAsset`: a file that a release has for download, as the release service lists it. -/
structure GhAsset where
  name : String
  size : ℕ
  browserDownloadUrl : String
  deriving DecidableEq, Repr

/-- `GhRelease`: a release as it is listed, with its files; a draft is not out yet. -/
structure GhRelease where
  tagName : String
  htmlUrl : String
  body : Option String
  assets : List GhAsset
  draft : Bool
  deriving DecidableEq, Repr

/-- `UpdateInfo`: a release that is offered, with the file to download for this machine. -/
structure UpdateInfo where
  tag : String
  version : String
  htmlUrl : String
  assetUrl : String
  assetName : String
  assetSize : ℕ
  body : String
  deriving DecidableEq, Repr

/-- `CheckResult`: what a check offers, and whether it is newer than what runs. -/
structure CheckResult where
  info : UpdateInfo
  newer : Bool
  deriving DecidableEq, Repr

/-- `str::trim_start_matches('v')`: every `v` in front goes, not the first alone. -/
def trimStartV (s : List Char) : List Char := s.dropWhile (· = 'v')

/-- A tag or a version as it is read and as it stands in a file's name: trimmed, and without its
`v`. -/
def stripTag (s : String) : String := String.ofList (trimStartV (LogParse.trim s.toList))

variable {V : Type} [LinearOrder V] (parse : String → Option V)

/-- The version of a tag, if it is one. -/
def tagVersion (tag : String) : Option V := parse (stripTag tag)

/-- `is_newer`: both are versions and the first is the greater. A tag that cannot be read is not
newer. -/
def isNewer (tag current : String) : Bool :=
  match tagVersion parse tag, tagVersion parse current with
  | some lhs, some rhs => decide (rhs < lhs)
  | _, _ => false

/-- `pick_asset`: the first file with a name that an archive of this release has for this machine. -/
def pickAsset (assets : List GhAsset) (tag target : String) : Option GhAsset :=
  let base := "synbad-" ++ stripTag tag ++ "-" ++ target
  let preferZip := "-pc-windows-msvc".toList.isSuffixOf target.toList
  let expected := base ++ "." ++ if preferZip then "zip" else "tar.gz"
  let alternate := base ++ ".tgz"
  assets.find? fun a => a.name == expected || (!preferZip && a.name == alternate)

/-- `max_by`: the greatest, and of equals the last, as it is documented. -/
def maxBy {α : Type} (key : α → V) : List α → Option α
  | [] => none
  | a :: rest =>
      some (rest.foldl (fun best b => if key b < key best then best else b) a)

/-- The releases that count, with their versions: drafts and those whose tag is no version are left
out. -/
def published (releases : List GhRelease) : List (V × GhRelease) :=
  (releases.filter fun r => !r.draft).filterMap fun r => (tagVersion parse r.tagName).map (·, r)

/-- `check`, for this version and this machine, with what the release service has answered. -/
def check (current target : String) (releases : Except String (List GhRelease)) :
    Except String CheckResult :=
  match releases with
  | .error e => .error e
  | .ok releases =>
      match (maxBy Prod.fst (published parse releases)).map Prod.snd with
      | none => .error "no published (non-draft) releases with a semver tag found"
      | some release =>
          match pickAsset release.assets release.tagName target with
          | none =>
              .error ("no release asset matches host target `" ++ target ++ "` in release " ++
                release.tagName)
          | some asset =>
              .ok
                { info :=
                    { tag := release.tagName
                      version := String.ofList (trimStartV release.tagName.toList)
                      htmlUrl := release.htmlUrl
                      assetUrl := asset.browserDownloadUrl
                      assetName := asset.name
                      assetSize := asset.size
                      body := release.body.getD "" }
                  newer := isNewer parse release.tagName current }

/-! ## The newest release -/

section MaxBy

variable {α : Type} {key : α → V} {l : List α} {a b : α}

/-- The fold keeps an element that nothing so far exceeds. -/
theorem foldl_max (key : α → V) (best : α) (l : List α) :
    let m := l.foldl (fun best b => if key b < key best then best else b) best
    (m = best ∨ m ∈ l) ∧ key best ≤ key m ∧ ∀ b ∈ l, key b ≤ key m := by
  induction l generalizing best with
  | nil => simp
  | cons b l ih =>
      simp only [List.foldl_cons]
      by_cases hlt : key b < key best
      · rw [if_pos hlt]
        obtain ⟨hmem, hbest, hall⟩ := ih best
        refine ⟨hmem.imp_right (List.mem_cons_of_mem b), hbest, fun c hc => ?_⟩
        rcases List.mem_cons.mp hc with rfl | hc
        · exact hlt.le.trans hbest
        · exact hall c hc
      · rw [if_neg hlt]
        obtain ⟨hmem, hbest, hall⟩ := ih b
        refine ⟨Or.inr ?_, (not_lt.mp hlt).trans hbest, fun c hc => ?_⟩
        · rcases hmem with h | h
          · rw [h]
            exact List.mem_cons_self
          · exact List.mem_cons_of_mem b h
        · rcases List.mem_cons.mp hc with rfl | hc
          · exact hbest
          · exact hall c hc

/-- The greatest element is there and nothing exceeds it. -/
theorem maxBy_eq_some (h : maxBy key l = some a) : a ∈ l ∧ ∀ b ∈ l, key b ≤ key a := by
  cases l with
  | nil => cases h
  | cons c l =>
      obtain ⟨hmem, hbest, hall⟩ := foldl_max key c l
      rw [maxBy, Option.some.injEq] at h
      rw [h] at hmem hbest hall
      refine ⟨?_, fun b hb => ?_⟩
      · rcases hmem with rfl | hmem
        · exact List.mem_cons_self
        · exact List.mem_cons_of_mem c hmem
      · rcases List.mem_cons.mp hb with rfl | hb
        · exact hbest
        · exact hall b hb

end MaxBy

variable {parse} {releases : List GhRelease} {current target : String}

omit [LinearOrder V] in
/-- What counts is listed, is published and has a version. -/
theorem mem_published {v : V} {r : GhRelease} :
    (v, r) ∈ published parse releases ↔
      r ∈ releases ∧ r.draft = false ∧ tagVersion parse r.tagName = some v := by
  simp only [published, List.mem_filterMap, List.mem_filter, Bool.not_eq_true', Option.map_eq_some_iff,
    Prod.mk.injEq]
  constructor
  · rintro ⟨r', ⟨hmem, hdraft⟩, v', hv, rfl, rfl⟩
    exact ⟨hmem, hdraft, hv⟩
  · rintro ⟨hmem, hdraft, hv⟩
    exact ⟨r, ⟨hmem, hdraft⟩, v, hv, rfl, rfl⟩

/-- The names an archive of this release for this machine may have. -/
def archiveNames (tag target : String) : List String :=
  let base := "synbad-" ++ stripTag tag ++ "-" ++ target
  if "-pc-windows-msvc".toList.isSuffixOf target.toList then [base ++ "." ++ "zip"]
  else [base ++ "." ++ "tar.gz", base ++ ".tgz"]

omit [LinearOrder V] in
/-- **The archive that is picked** is that of the release and of the machine, in a format the machine
extracts. -/
theorem pickAsset_eq_some {assets : List GhAsset} {tag : String} {a : GhAsset}
    (h : pickAsset assets tag target = some a) : a ∈ assets ∧ a.name ∈ archiveNames tag target := by
  refine ⟨List.mem_of_find?_eq_some h, ?_⟩
  have hname := List.find?_some h
  unfold archiveNames
  generalize "synbad-" ++ stripTag tag ++ "-" ++ target = base at hname ⊢
  cases hzip : "-pc-windows-msvc".toList.isSuffixOf target.toList with
  | true =>
      simp only [hzip, Bool.not_true, Bool.false_and, Bool.or_false, beq_iff_eq, if_true] at hname
      rw [if_pos rfl, hname]
      exact List.mem_cons_self
  | false =>
      simp only [hzip, Bool.not_false, Bool.true_and, Bool.or_eq_true, beq_iff_eq, Bool.false_eq_true,
        if_false] at hname
      rw [if_neg Bool.false_ne_true]
      rcases hname with h | h
      · rw [h]
        exact List.mem_cons_self
      · rw [h]
        exact List.mem_cons_of_mem _ List.mem_cons_self

/-- **What is offered**: the archive of a published release that no other published one is newer than. -/
structure Offer (parse : String → Option V) (target : String) (releases : List GhRelease) (info : UpdateInfo)
    (v : V) : Prop where
  version : tagVersion parse info.tag = some v
  newest : ∀ r ∈ releases, r.draft = false → ∀ w, tagVersion parse r.tagName = some w → w ≤ v
  archive : ∃ r ∈ releases, r.draft = false ∧ r.tagName = info.tag ∧
    ∃ a ∈ r.assets, a.name = info.assetName ∧ a.browserDownloadUrl = info.assetUrl ∧
      a.name ∈ archiveNames r.tagName target

/-- **A check that succeeds offers the newest release**, whatever the order in which they are listed, and
calls it newer if it is newer than what runs. -/
theorem check_ok {listed : Except String (List GhRelease)} {result : CheckResult}
    (h : check parse current target listed = .ok result) :
    ∃ releases v, listed = .ok releases ∧ Offer parse target releases result.info v ∧
      (result.newer = true ↔ ∃ w, tagVersion parse current = some w ∧ w < v) := by
  unfold check at h
  cases listed with
  | error e => cases h
  | ok releases =>
      simp only at h
      cases hmax : maxBy Prod.fst (published parse releases) with
      | none =>
          rw [hmax] at h
          cases h
      | some best =>
          obtain ⟨v, release⟩ := best
          obtain ⟨hmem, hall⟩ := maxBy_eq_some hmax
          obtain ⟨hlisted, hdraft, hv⟩ := mem_published.mp hmem
          rw [hmax] at h
          simp only [Option.map_some] at h
          cases hasset : pickAsset release.assets release.tagName target with
          | none =>
              rw [hasset] at h
              cases h
          | some asset =>
              rw [hasset] at h
              cases h
              obtain ⟨hasset, hname⟩ := pickAsset_eq_some hasset
              refine ⟨releases, v, rfl, ⟨hv, fun r hr hpublished w hw => ?_, release, hlisted, hdraft, rfl, asset,
                hasset, rfl, rfl, hname⟩, ?_⟩
              -- no published release is newer, as it would have been the greatest
              · exact hall (w, r) (mem_published.mpr ⟨hr, hpublished, hw⟩)
              · simp only [isNewer, hv]
                cases tagVersion parse current with
                | none => simp
                | some w => simp

end Update

end Synbad
