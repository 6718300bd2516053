import Synbad.Lib.Run
import Synbad.Config.Basic

/-! # The layout editor

`layout_editor.rs`: one frame of `LayoutEditor::show`, with every index it uses. The rectangles are
made at the start of a frame, the drag is held over frames by an index, and a deletion takes effect in
between, so three lists have to stay aligned that are changed at different times. Points, rectangles
and the floating-point arithmetic on them are parameters (`Geometry`).

A part of a frame gives nothing where an index is out of bounds, so that a failure is visible.
`arrange` is the frame up to its links, in the order of the source; `Arranged` says what it leaves, by
cases of whether a screen was deleted. `Safe` is what a frame should do: every index is in bounds, the
links are made from the rectangles of the screens, and no screen moves but the one that was grabbed.

`safe_iff` splits that into three conditions on the state before the frame and what the toolkit
reports: the drag holds its screen, its rectangle is made again or stays, and nothing is deleted.
`layout_safe_iff` carries it to sessions of frames and replacements of the document, for which the
index of a drag is followed from one frame to the next (`Tracks`). -/

namespace Synbad

/-! ## The canvas -/

/-- The arithmetic of the canvas, which is floating-point, as far as a frame asks for it. -/
structure Geometry (Pos Vec Rect : Type) where
  /-- No pan: the canvas as it is at first. -/
  zero : Vec
  /-- The centre of the canvas moved by the pan. -/
  origin : Pos → Vec → Pos
  /-- The pan after a middle-button drag, by what it was and how far it went. -/
  panBy : Vec → Vec → Vec
  /-- The rectangle of a screen, of its display size. -/
  rect : Pos → Screen → Rect
  contains : Rect → Pos → Bool
  /-- Where in a rectangle it is grabbed by a pointer. -/
  offset : Pos → Rect → Vec
  /-- The snapped position of a screen held there, under this pointer. -/
  snapped : Pos → Vec → Pos → Int × Int
  /-- The side by which the first rectangle touches the second, right or down. -/
  touch : Rect → Rect → Option Side

/-- What the toolkit reports in a frame: the pointer, the drag and the context menu. -/
structure Frame (Pos Vec : Type) where
  center : Pos
  panned : Option Vec
  hover : Option Pos
  pressOrigin : Option Pos
  dragStarted : Bool
  dragStopped : Bool
  /-- The context menu is open, over the screen that is hovered. -/
  menuOpen : Bool
  /-- Its `Delete` is clicked, if the menu has one. -/
  deleteClicked : Bool

/-- `DragState`: the index of the screen that is dragged, and where in it the pointer is. -/
structure DragState (Vec : Type) where
  idx : ℕ
  offset : Vec

/-- `LayoutEditor`: what is kept from one frame to the next. -/
structure LayoutEditor (Vec : Type) where
  pan : Vec
  dragging : Option (DragState Vec)
  pendingDelete : Option ℕ

/-- `LayoutEditor::default`: no pan, no drag, and nothing to be deleted. -/
def LayoutEditor.fresh {Pos Vec Rect : Type} (g : Geometry Pos Vec Rect) : LayoutEditor Vec :=
  ⟨g.zero, none, none⟩

/-- What a frame works on, up to the links. -/
structure Canvas (Vec Rect : Type) where
  editor : LayoutEditor Vec
  config : Config
  rects : List Rect
  dirty : Bool

/-- A screen at another position, with everything else as it is. -/
def Screen.moveTo (s : Screen) (position : Int × Int) : Screen :=
  { s with position := { s.position with x := position.1, y := position.2 } }

variable {Pos Vec Rect : Type}

namespace LayoutEditor

variable (g : Geometry Pos Vec Rect)

/-! ## A frame, part by part

A part gives nothing where an index is out of bounds. -/

/-- The topmost rectangle under the pointer, by its index: the last one that contains it. -/
def hoveredIdx (rects : List Rect) (hover : Option Pos) : Option ℕ :=
  hover.bind fun p => (rects.zipIdx.reverse.find? fun r => g.contains r.1 p).map Prod.snd

/-- A drag begins on the hovered screen, if there is one and the press has an origin. -/
def startDrag (e : LayoutEditor Vec) (rects : List Rect) (f : Frame Pos Vec) :
    Option (LayoutEditor Vec) :=
  if f.dragStarted then
    match hoveredIdx g rects f.hover with
    | none => some e
    | some idx =>
        match f.pressOrigin with
        | none => some e
        | some p => rects[idx]?.map fun r => { e with dragging := some ⟨idx, g.offset p r⟩ }
  else some e

/-- A drag moves its screen under the pointer, and whether that changes its position. -/
def continueDrag (e : LayoutEditor Vec) (origin : Pos) (f : Frame Pos Vec) (c : Config) :
    Option (Config × Bool) :=
  match e.dragging with
  | none => some (c, false)
  | some drag =>
      match f.hover with
      | none => some (c, false)
      | some pos =>
          -- the document may have been replaced since the drag began
          c.screens[drag.idx]?.map fun s =>
            let position := g.snapped pos drag.offset origin
            if position.1 ≠ s.position.x ∨ position.2 ≠ s.position.y then
              ({ c with screens := c.screens.set drag.idx (s.moveTo position) }, true)
            else (c, false)

/-- A drag that ends has the rectangles made again. -/
def stopDrag (e : LayoutEditor Vec) (origin : Pos) (f : Frame Pos Vec) (screens : List Screen)
    (rects : List Rect) : LayoutEditor Vec × List Rect × Bool :=
  if f.dragStopped then
    if e.dragging.isSome then
      -- a rectangle without a screen stays as it is
      ({ e with dragging := none },
        screens.zipWith (fun s _ => g.rect origin s) rects ++ rects.drop screens.length, true)
    else (e, rects, false)
  else (e, rects, false)

/-- The context menu names the hovered screen and may mark it for deletion. -/
def contextMenu (e : LayoutEditor Vec) (hovered : Option ℕ) (f : Frame Pos Vec)
    (screens : List Screen) : Option (LayoutEditor Vec) :=
  if f.menuOpen then
    match hovered with
    | none => some e
    | some idx =>
        screens[idx]?.map fun _ =>
          if f.deleteClicked then { e with pendingDelete := some idx } else e
  else some e

/-- A screen marked for deletion goes, with its links; the role of the server passes on. -/
def deletePending (e : LayoutEditor Vec) (c : Config) : Option (LayoutEditor Vec × Config × Bool) :=
  match e.pendingDelete with
  | none => some (e, c, false)
  | some idx =>
      c.screens[idx]?.map fun removed =>
        let screens := c.screens.eraseIdx idx
        ({ e with pendingDelete := none },
          { c with
            screens := screens
            links := c.links.filter fun l => l.from ≠ removed.name ∧ l.to ≠ removed.name
            serverName :=
              if c.serverName = removed.name then (screens.head?.map Screen.name).getD ""
              else c.serverName },
          true)

/-- `show` after the drag: its end, the context menu and the deletion. -/
def settle (e : LayoutEditor Vec) (origin : Pos) (f : Frame Pos Vec) (c : Config) (rects : List Rect)
    (hovered : Option ℕ) (moved : Bool) : Option (Canvas Vec Rect) := do
  let (e, rects, stopped) := stopDrag g e origin f c.screens rects
  let e ← contextMenu e hovered f c.screens
  let (e, c, deleted) ← deletePending e c
  -- the rectangle of a deleted screen stays in the list
  return ⟨e, c, rects, moved || stopped || deleted⟩

/-- `show` up to the links: the pan, the rectangles, the drag, the menu and the deletion. -/
def arrange (e : LayoutEditor Vec) (c : Config) (f : Frame Pos Vec) : Option (Canvas Vec Rect) := do
  let origin := g.origin f.center e.pan
  let e := { e with pan := (f.panned.map (g.panBy e.pan)).getD e.pan }
  let rects := c.screens.map (g.rect origin)
  let e ← startDrag g e rects f
  let (c, moved) ← continueDrag g e origin f c
  settle g e origin f c rects (hoveredIdx g rects f.hover) moved

/-- The pairs of different indices, as `derive_links` goes through them. -/
def pairs (n : ℕ) : List (ℕ × ℕ) :=
  (List.range n).flatMap fun i => ((List.range n).filter (· ≠ i)).map fun j => (i, j)

/-- The link of a pair, if its rectangles touch. -/
def linkOf (screens : List Screen) (rects : List Rect) (p : ℕ × ℕ) : Option (Option Link) := do
  let a ← rects[p.1]?
  let b ← rects[p.2]?
  match g.touch a b with
  | none => return none
  | some side =>
      -- the reverse direction is left to the generated file
      let source ← screens[p.1]?
      let target ← screens[p.2]?
      return some ⟨source.name, side, target.name⟩

/-- `derive_links`: a link for every pair of rectangles that touch. -/
def deriveLinks (screens : List Screen) (rects : List Rect) : Option (List Link) :=
  ((pairs screens.length).mapM (linkOf g screens rects)).map List.reduceOption

/-- `draw_link_edge`, of the first screens with the names of a link. -/
def drawLinkEdge (screens : List Screen) (rects : List Rect) (l : Link) : Option Unit :=
  match screens.findIdx? (·.name = l.from), screens.findIdx? (·.name = l.to) with
  | some a, some b => do
      let _ ← rects[a]?
      let _ ← rects[b]?
      return ()
  | _, _ => return ()

/-- Draw a screen in every rectangle, and a mark on the edge of every link. -/
def draw (c : Config) (rects : List Rect) : Option Unit := do
  let _ ← rects.zipIdx.mapM fun r => c.screens[r.2]?
  let _ ← c.links.mapM (drawLinkEdge c.screens rects)
  return ()

/-- `reset_view`: the pan goes back to none. -/
def resetView (e : LayoutEditor Vec) : LayoutEditor Vec := { e with pan := g.zero }

/-- `show`: the editor and the document afterwards, and whether the document has changed. -/
def showFrame (e : LayoutEditor Vec) (c : Config) (f : Frame Pos Vec) :
    Option (LayoutEditor Vec × Config × Bool) := do
  let canvas ← arrange g e c f
  let links ← deriveLinks g canvas.config.screens canvas.rects
  let c := { canvas.config with links := links }
  draw c canvas.rects
  return (canvas.editor, c, canvas.dirty || links ≠ canvas.config.links)

end LayoutEditor

/-! ## Frames and replacements -/

/-- A document in the editor, with the name of the screen that was grabbed last. -/
structure Editing (Vec : Type) where
  editor : LayoutEditor Vec
  config : Config
  grabbed : Option String

/-- What happens to a document that is edited: a frame, or its replacement by another one. -/
inductive EditingInput (Pos Vec : Type) where
  | frame (f : Frame Pos Vec)
  /-- The document is replaced between frames: by the daemon's, or by an edit on another tab. -/
  | replace (c : Config)
  | resetView

namespace Editing

variable (g : Geometry Pos Vec Rect) (s : Editing Vec) (f : Frame Pos Vec)

/-- The origin of the canvas in this frame, by the pan of the frame before. -/
def origin : Pos := g.origin f.center s.editor.pan

/-- The rectangles that the frame starts with, one for each screen. -/
def rects : List Rect := s.config.screens.map (g.rect (s.origin g f))

/-- The hovered screen in this frame, by its index. -/
def hovered : Option ℕ := LayoutEditor.hoveredIdx g (s.rects g f) f.hover

/-- The screen that is grabbed in this frame, if a drag begins on one. -/
def grabs : Option ℕ := if f.dragStarted && f.pressOrigin.isSome then s.hovered g f else none

/-- The drag in force in this frame: a new one, or the one that is held. -/
def drag : Option (DragState Vec) :=
  match s.grabs g f, f.pressOrigin with
  | some idx, some p => (s.rects g f)[idx]?.map fun r => ⟨idx, g.offset p r⟩
  | _, _ => s.editor.dragging

/-- The name of the screen it was begun on. -/
def grabbedIn : Option String :=
  match s.grabs g f with
  | some idx => s.config.screens[idx]?.map Screen.name
  | none => s.grabbed

/-- The screens once the drag has moved its own. -/
def movedScreens : Option (List Screen) :=
  match s.drag g f, f.hover with
  | some drag, some pos =>
      s.config.screens[drag.idx]?.map fun scr =>
        s.config.screens.set drag.idx (scr.moveTo (g.snapped pos drag.offset (s.origin g f)))
  | _, _ => some s.config.screens

end Editing

namespace LayoutEditor

variable {g : Geometry Pos Vec Rect} {s : Editing Vec} {f : Frame Pos Vec}

/-- What is hovered is there: its index is that of a rectangle. -/
theorem hoveredIdx_lt {rects : List Rect} {hover : Option Pos} {idx : ℕ}
    (h : hoveredIdx g rects hover = some idx) : idx < rects.length := by
  rw [hoveredIdx, Option.bind_eq_some_iff] at h
  obtain ⟨p, -, h⟩ := h
  rw [Option.map_eq_some_iff] at h
  obtain ⟨r, hr, rfl⟩ := h
  have hmem := List.mem_reverse.mp (List.mem_of_find?_eq_some hr)
  exact (List.getElem?_eq_some_iff.mp (List.mem_zipIdx_iff_getElem?.mp hmem)).1

/-- Starting a drag never fails, as it takes the rectangle that is hovered. -/
theorem startDrag_eq (pan : Vec) :
    startDrag g { s.editor with pan := pan } (s.rects g f) f =
      some { s.editor with pan := pan, dragging := s.drag g f } := by
  rw [startDrag, Editing.drag, Editing.grabs, Editing.hovered]
  cases hstart : f.dragStarted with
  | false => rfl
  | true =>
      cases hhover : hoveredIdx g (s.rects g f) f.hover with
      | none => cases f.pressOrigin <;> rfl
      | some idx =>
          cases f.pressOrigin with
          | none => rfl
          | some p =>
              have hr := List.getElem?_eq_getElem (hoveredIdx_lt hhover)
              simp [hr]

/-- A screen that is moved to where it is stays the same. -/
theorem moveTo_self {scr : Screen} {position : Int × Int}
    (h : ¬ (position.1 ≠ scr.position.x ∨ position.2 ≠ scr.position.y)) :
    scr.moveTo position = scr := by
  rw [not_or, not_not, not_not] at h
  rw [Screen.moveTo, h.1, h.2]

/-- The drag moves the screens as said, or uses an index that is out of bounds. -/
theorem continueDrag_eq (pan : Vec) :
    (continueDrag g { s.editor with pan := pan, dragging := s.drag g f } (s.origin g f) f
        s.config).map Prod.fst =
      (s.movedScreens g f).map fun screens => { s.config with screens := screens } := by
  rw [continueDrag, Editing.movedScreens]
  cases s.drag g f with
  | none => rfl
  | some drag =>
      cases f.hover with
      | none => rfl
      | some pos =>
          simp only [Option.map_map]
          cases hscr : s.config.screens[drag.idx]? with
          | none => rfl
          | some scr =>
              simp only [Option.map_some, Function.comp_apply, Option.some.injEq]
              split
              · rfl
              · next hsame =>
                obtain ⟨hlt, rfl⟩ := List.getElem?_eq_some_iff.mp hscr
                rw [moveTo_self hsame, List.set_getElem_self]

/-- Screens are moved in place, so there are as many as before. -/
theorem length_movedScreens {screens : List Screen} (h : s.movedScreens g f = some screens) :
    screens.length = s.config.screens.length := by
  unfold Editing.movedScreens at h
  split at h
  · rw [Option.map_eq_some_iff] at h
    obtain ⟨scr, -, rfl⟩ := h
    exact List.length_set
  · rw [← Option.some.inj h]

/-- Rectangles made again are the rectangles of the screens. -/
theorem zipWith_map_left {α β : Type*} (h : α → β) {l : List α} {k : List β}
    (hlen : l.length = k.length) : l.zipWith (fun a _ => h a) k ++ k.drop l.length = l.map h := by
  rw [hlen, List.drop_length, List.append_nil]
  induction l generalizing k with
  | nil => rfl
  | cons a l ih =>
      cases k with
      | nil => simp at hlen
      | cons b k => exact congrArg (h a :: ·) (ih (by simpa using hlen))

/-- The end of a drag: it is forgotten, and the rectangles are made again from the screens. -/
theorem stopDrag_eq (e : LayoutEditor Vec) (origin : Pos) {screens : List Screen} {rects : List Rect}
    (hlen : screens.length = rects.length) :
    (stopDrag g e origin f screens rects).1 =
        { e with dragging := if f.dragStopped then none else e.dragging } ∧
      (stopDrag g e origin f screens rects).2.1 =
        if f.dragStopped && e.dragging.isSome then screens.map (g.rect origin) else rects := by
  rw [stopDrag]
  cases f.dragStopped with
  | false => exact ⟨rfl, rfl⟩
  | true =>
      cases hd : e.dragging with
      | none =>
          refine ⟨?_, rfl⟩
          show e = { e with dragging := none }
          rw [← hd]
      | some drag => exact ⟨rfl, zipWith_map_left (g.rect origin) hlen⟩

/-- The screen marked for deletion is taken out, with its links, and the mark is gone. -/
theorem deletePending_of_some {e : LayoutEditor Vec} {c : Config} {idx : ℕ}
    (h : e.pendingDelete = some idx) (hlt : idx < c.screens.length) :
    ∃ c', deletePending e c = some ({ e with pendingDelete := none }, c', true) ∧
      c'.screens = c.screens.eraseIdx idx := by
  have hscr := List.getElem?_eq_getElem hlt
  simp only [deletePending, h, hscr, Option.map_some]
  exact ⟨_, rfl, rfl⟩

/-- A frame deletes a screen if one is hovered when `Delete` is clicked, and that does not fail. -/
theorem contextMenu_deletePending {e : LayoutEditor Vec} {c : Config} {hovered : Option ℕ}
    (hpending : e.pendingDelete = none)
    (hlt : ∀ idx, hovered = some idx → idx < c.screens.length) :
    ∃ e' c' deleted,
      ((contextMenu e hovered f c.screens).bind fun e => deletePending e c) = some (e', c', deleted) ∧
      e'.pendingDelete = none ∧ e'.dragging = e.dragging ∧
      ((f.menuOpen = true → f.deleteClicked = true → hovered = none) → c'.screens = c.screens) ∧
      (¬ (f.menuOpen = true → f.deleteClicked = true → hovered = none) →
        c'.screens.length + 1 = c.screens.length) := by
  have hkeep : deletePending e c = some (e, c, false) := by
    rw [deletePending, hpending]
  unfold contextMenu
  cases hmenu : f.menuOpen with
  | false =>
      refine ⟨e, c, false, hkeep, hpending, rfl, fun _ => rfl, fun h => ?_⟩
      exact absurd (fun h => by cases h) h
  | true =>
      cases hovered with
      | none =>
          -- the menu is over no screen, and its click deletes nothing
          refine ⟨e, c, false, hkeep, hpending, rfl, fun _ => rfl, fun h => ?_⟩
          exact absurd (fun _ _ => rfl) h
      | some idx =>
          have hscr := List.getElem?_eq_getElem (hlt idx rfl)
          cases hclick : f.deleteClicked with
          | false =>
              refine ⟨e, c, false, ?_, hpending, rfl, fun _ => rfl, fun h => ?_⟩
              · simp only [if_true, hscr, Option.map_some, Option.bind_some]
                exact hkeep
              · exact absurd (fun _ h => by cases h) h
          | true =>
              -- the one case in which a screen goes: the menu is over it and its entry is clicked
              obtain ⟨c', hdelete, hscreens⟩ := deletePending_of_some
                (e := { e with pendingDelete := some idx }) rfl (hlt idx rfl)
              refine ⟨{ e with pendingDelete := none }, c', true, ?_, rfl, rfl, fun h => ?_, fun _ => ?_⟩
              · simp only [if_true, hscr, Option.map_some, Option.bind_some]
                exact hdelete
              · cases h rfl rfl
              · rw [hscreens, List.length_eraseIdx_of_lt (hlt idx rfl)]
                have hpos := hlt idx rfl
                omega

/-- What a frame leaves of the drag and the rectangles, and where the screens go. -/
structure Arranged (g : Geometry Pos Vec Rect) (s : Editing Vec) (f : Frame Pos Vec)
    (screens : List Screen) (canvas : Canvas Vec Rect) : Prop where
  pending : canvas.editor.pendingDelete = none
  dragging : canvas.editor.dragging = if f.dragStopped then none else s.drag g f
  rects : canvas.rects =
    if f.dragStopped && (s.drag g f).isSome then screens.map (g.rect (s.origin g f)) else s.rects g f
  /-- Nothing is deleted, and the screens are those after the drag. -/
  kept : (f.menuOpen = true → f.deleteClicked = true → s.hovered g f = none) →
    canvas.config.screens = screens
  /-- A screen is deleted, so there is one less. -/
  deleted : ¬ (f.menuOpen = true → f.deleteClicked = true → s.hovered g f = none) →
    canvas.config.screens.length + 1 = s.config.screens.length

/-- The second half of a frame never fails, and leaves the drag, the rectangles and the screens as
`Arranged` says. -/
theorem settle_arranged {e : LayoutEditor Vec} {c : Config} (hpending : e.pendingDelete = none)
    (hdrag : e.dragging = s.drag g f) (hlen : c.screens.length = s.config.screens.length)
    (moved : Bool) :
    ∃ canvas, settle g e (s.origin g f) f c (s.rects g f) (s.hovered g f) moved = some canvas ∧
      Arranged g s f c.screens canvas := by
  -- a drag moves rectangles, not the number of them, so the menu's screen is one there is
  have hrects : c.screens.length = (s.rects g f).length := by
    rw [hlen, Editing.rects, List.length_map]
  obtain ⟨hstop, hrects'⟩ := stopDrag_eq (g := g) (f := f) e (s.origin g f) hrects
  unfold settle
  generalize stopDrag g e (s.origin g f) f c.screens (s.rects g f) = stop at hstop hrects'
  obtain ⟨e', rects', stopped⟩ := stop
  simp only at hstop hrects'
  have hpending' : e'.pendingDelete = none := by
    rw [hstop]
    exact hpending
  have hlt : ∀ idx, s.hovered g f = some idx → idx < c.screens.length := by
    intro idx hidx
    rw [hrects]
    exact hoveredIdx_lt hidx
  obtain ⟨e'', c', deleted, hdelete, hnone, hdragging, hkept, hdeleted⟩ :=
    contextMenu_deletePending (f := f) hpending' hlt
  refine ⟨⟨e'', c', rects', moved || stopped || deleted⟩, ?_, hnone, ?_, ?_, hkept, ?_⟩
  · show ((contextMenu e' (s.hovered g f) f c.screens).bind fun e =>
      (deletePending e c).bind _) = some _
    rw [← Option.bind_assoc, hdelete]
    rfl
  · rw [hdragging, hstop, ← hdrag]
  · rw [← hdrag]
    exact hrects'
  · rw [← hlen]
    exact hdeleted

/-- A frame whose drag is out of bounds fails. -/
theorem arrange_of_movedScreens_none (h : s.movedScreens g f = none) :
    arrange g s.editor s.config f = none := by
  have hcontinue := continueDrag_eq (g := g) (s := s) (f := f)
    ((f.panned.map (g.panBy s.editor.pan)).getD s.editor.pan)
  rw [h, Option.map_none, Option.map_eq_none_iff] at hcontinue
  have hstart := startDrag_eq (g := g) (s := s) (f := f)
    ((f.panned.map (g.panBy s.editor.pan)).getD s.editor.pan)
  show (startDrag g { s.editor with pan := _ } (s.rects g f) f).bind _ = none
  rw [hstart, Option.bind_some]
  show (continueDrag g _ (s.origin g f) f s.config).bind _ = none
  rw [hcontinue, Option.bind_none]

/-- **A frame up to its links** never fails if moving the screens does not. -/
theorem arrange_of_movedScreens {screens : List Screen} (hpending : s.editor.pendingDelete = none)
    (h : s.movedScreens g f = some screens) :
    ∃ canvas, arrange g s.editor s.config f = some canvas ∧ Arranged g s f screens canvas := by
  have hlen := length_movedScreens h
  have hcontinue := continueDrag_eq (g := g) (s := s) (f := f)
    ((f.panned.map (g.panBy s.editor.pan)).getD s.editor.pan)
  rw [h, Option.map_some, Option.map_eq_some_iff] at hcontinue
  obtain ⟨⟨c, moved⟩, hcontinue, rfl⟩ := hcontinue
  have hstart := startDrag_eq (g := g) (s := s) (f := f)
    ((f.panned.map (g.panBy s.editor.pan)).getD s.editor.pan)
  show ∃ canvas, (startDrag g { s.editor with pan := _ } (s.rects g f) f).bind _ = some canvas ∧ _
  rw [hstart, Option.bind_some]
  show ∃ canvas, (continueDrag g _ (s.origin g f) f s.config).bind _ = some canvas ∧ _
  rw [hcontinue, Option.bind_some]
  exact settle_arranged (e := { s.editor with pan := _, dragging := s.drag g f })
    (c := { s.config with screens := screens }) hpending rfl hlen moved

/-! ## The links and the drawing -/

/-- A map that may fail does not if it fails on no element. -/
theorem mapM_isSome {α β : Type} {h : α → Option β} {l : List α}
    (hl : ∀ a ∈ l, (h a).isSome = true) : (l.mapM h).isSome = true := by
  induction l with
  | nil => rfl
  | cons a l ih =>
      obtain ⟨b, hb⟩ := Option.isSome_iff_exists.mp (hl a List.mem_cons_self)
      obtain ⟨bs, hbs⟩ := Option.isSome_iff_exists.mp (ih fun c hc => hl c (List.mem_cons_of_mem a hc))
      rw [List.mapM_cons, hb, hbs]
      rfl

/-- With a rectangle for every screen, every pair has its rectangles. -/
theorem deriveLinks_isSome {screens : List Screen} {rects : List Rect}
    (hlen : rects.length = screens.length) : (deriveLinks g screens rects).isSome = true := by
  rw [deriveLinks, Option.isSome_map]
  refine mapM_isSome fun p hp => ?_
  simp only [pairs, List.mem_flatMap, List.mem_map, List.mem_filter, List.mem_range] at hp
  obtain ⟨i, hi, j, ⟨hj, -⟩, rfl⟩ := hp
  rw [linkOf]
  simp only [List.getElem?_eq_getElem (hlen ▸ hi : i < rects.length),
    List.getElem?_eq_getElem (hlen ▸ hj : j < rects.length), List.getElem?_eq_getElem hi,
    List.getElem?_eq_getElem hj]
  show Option.isSome (match g.touch _ _ with
    | none => _
    | some side => _) = true
  split <;> rfl

/-- With a rectangle for every screen, a link has its rectangles. -/
theorem drawLinkEdge_isSome {screens : List Screen} {rects : List Rect}
    (hlen : rects.length = screens.length) (l : Link) :
    (drawLinkEdge screens rects l).isSome = true := by
  have hlt : ∀ {p : Screen → Bool} {i : ℕ}, screens.findIdx? p = some i → i < rects.length := by
    intro p i hi
    rw [hlen]
    exact (List.findIdx?_eq_some_iff_getElem.mp hi).1
  unfold drawLinkEdge
  split
  · next a b ha hb =>
    rw [List.getElem?_eq_getElem (hlt ha), List.getElem?_eq_getElem (hlt hb)]
    rfl
  · rfl

/-- With a rectangle for every screen, everything can be drawn. -/
theorem draw_isSome {c : Config} {rects : List Rect} (hlen : rects.length = c.screens.length) :
    (draw c rects).isSome = true := by
  have hscreens : (rects.zipIdx.mapM fun r => c.screens[r.2]?).isSome = true := by
    refine mapM_isSome fun r hr => ?_
    have hlt := (List.getElem?_eq_some_iff.mp (List.mem_zipIdx_iff_getElem?.mp hr)).1
    rw [List.getElem?_eq_getElem (hlen ▸ hlt)]
    rfl
  obtain ⟨ss, hss⟩ := Option.isSome_iff_exists.mp hscreens
  obtain ⟨ls, hls⟩ := Option.isSome_iff_exists.mp
    (mapM_isSome fun l (_ : l ∈ c.links) => drawLinkEdge_isSome hlen l)
  unfold draw
  rw [hss, hls]
  rfl

/-- A frame that ends leaves the screens and the editor of its first part. -/
theorem showFrame_some {e : LayoutEditor Vec} {c : Config} {r : LayoutEditor Vec × Config × Bool}
    (h : showFrame g e c f = some r) :
    ∃ canvas, arrange g e c f = some canvas ∧ r.1 = canvas.editor ∧
      r.2.1.screens = canvas.config.screens := by
  unfold showFrame at h
  simp only [Option.bind_eq_bind, Option.bind_eq_some_iff] at h
  obtain ⟨canvas, hcanvas, links, -, -, -, hr⟩ := h
  refine ⟨canvas, hcanvas, ?_⟩
  rw [← Option.some.inj hr]
  exact ⟨rfl, rfl⟩

/-- With a rectangle for every screen the frame ends. -/
theorem showFrame_isSome {e : LayoutEditor Vec} {c : Config} {canvas : Canvas Vec Rect}
    (h : arrange g e c f = some canvas) (hlen : canvas.rects.length = canvas.config.screens.length) :
    (showFrame g e c f).isSome = true := by
  obtain ⟨links, hlinks⟩ := Option.isSome_iff_exists.mp (deriveLinks_isSome (g := g) hlen)
  obtain ⟨u, hdraw⟩ := Option.isSome_iff_exists.mp
    (draw_isSome (c := { canvas.config with links := links }) hlen)
  unfold showFrame
  simp only [h, hlinks, Option.bind_eq_bind, Option.bind_some, hdraw]
  rfl

end LayoutEditor

namespace Editing

/-! ## What a frame should do, and when it does it -/

variable (g : Geometry Pos Vec Rect) (s : Editing Vec) (f : Frame Pos Vec)

/-- Every index is in bounds, the links are made from the rectangles of the screens, and no screen
moves but the one that was grabbed. -/
def Safe : Prop :=
  (LayoutEditor.showFrame g s.editor s.config f).isSome = true ∧
    ∃ canvas, LayoutEditor.arrange g s.editor s.config f = some canvas ∧
      canvas.rects = canvas.config.screens.map (g.rect (s.origin g f)) ∧
      ∀ (i : ℕ) (a b : Screen), s.config.screens[i]? = some a → canvas.config.screens[i]? = some b →
        b.position ≠ a.position → s.grabbedIn g f = some a.name

/-- The index of the drag is that of a screen, and of the grabbed one if the pointer moves it. -/
def Held : Prop :=
  ∀ drag pos, s.drag g f = some drag → f.hover = some pos →
    ∃ scr, s.config.screens[drag.idx]? = some scr ∧
      ((scr.moveTo (g.snapped pos drag.offset (s.origin g f))).position ≠ scr.position →
        s.grabbedIn g f = some scr.name)

/-- The drag stops, or the rectangle of its screen stays. -/
def Settled : Prop :=
  f.dragStopped = true ∨
    ∀ drag pos scr, s.drag g f = some drag → f.hover = some pos →
      s.config.screens[drag.idx]? = some scr →
        g.rect (s.origin g f) (scr.moveTo (g.snapped pos drag.offset (s.origin g f))) =
          g.rect (s.origin g f) scr

/-- No screen is deleted in this frame. -/
def Undeleted : Prop :=
  f.menuOpen = true → f.deleteClicked = true → s.hovered g f = none

variable {g s f}

/-- Without a drag or without a pointer nothing moves. -/
theorem movedScreens_of_still (h : s.drag g f = none ∨ f.hover = none) :
    s.movedScreens g f = some s.config.screens := by
  rw [movedScreens]
  obtain h | h := h
  · rw [h]
  · rw [h]
    cases s.drag g f <;> rfl

/-- A drag under the pointer moves the screen at its index, and fails if there is none. -/
theorem movedScreens_of_drag {drag : DragState Vec} {pos : Pos} (hdrag : s.drag g f = some drag)
    (hpos : f.hover = some pos) :
    s.movedScreens g f = s.config.screens[drag.idx]?.map fun scr =>
      s.config.screens.set drag.idx (scr.moveTo (g.snapped pos drag.offset (s.origin g f))) := by
  rw [movedScreens, hdrag, hpos]

/-- A drag in force under the pointer, or not. -/
theorem still_or_drag :
    (s.drag g f = none ∨ f.hover = none) ∨
      ∃ drag pos, s.drag g f = some drag ∧ f.hover = some pos := by
  cases hdrag : s.drag g f with
  | none => exact .inl (.inl rfl)
  | some drag =>
      cases hpos : f.hover with
      | none => exact .inl (.inr rfl)
      | some pos => exact .inr ⟨drag, pos, rfl, rfl⟩

/-- There are as many rectangles as there were screens at the beginning of the frame. -/
theorem length_rects {screens : List Screen} {canvas : Canvas Vec Rect}
    (h : LayoutEditor.Arranged g s f screens canvas)
    (hlen : screens.length = s.config.screens.length) :
    canvas.rects.length = s.config.screens.length := by
  rw [h.rects]
  split
  · rw [List.length_map, hlen]
  · rw [rects, List.length_map]

/-- What a safe frame has met: the drag holds its screen, the rectangles follow it and nothing is
deleted. -/
theorem Safe.careful (hpending : s.editor.pendingDelete = none) (h : s.Safe g f) :
    s.Held g f ∧ s.Settled g f ∧ s.Undeleted g f := by
  obtain ⟨-, canvas, harrange, hrects, hmoves⟩ := h
  cases hmoved : s.movedScreens g f with
  | none =>
      rw [LayoutEditor.arrange_of_movedScreens_none hmoved] at harrange
      cases harrange
  | some screens =>
      have hlen := LayoutEditor.length_movedScreens hmoved
      obtain ⟨canvas', harrange', harranged⟩ :=
        LayoutEditor.arrange_of_movedScreens hpending hmoved
      obtain rfl : canvas' = canvas := Option.some.inj (harrange'.symm.trans harrange)
      -- a deletion leaves one rectangle too many
      have hundeleted : s.Undeleted g f := by
        by_contra hdelete
        have hfewer := harranged.deleted hdelete
        have hcount := length_rects harranged hlen
        rw [hrects, List.length_map] at hcount
        omega
      have hkept := harranged.kept hundeleted
      refine ⟨fun drag pos hdrag hpos => ?_, ?_, hundeleted⟩
      · rw [movedScreens_of_drag hdrag hpos, Option.map_eq_some_iff] at hmoved
        obtain ⟨scr, hscr, rfl⟩ := hmoved
        have hlt := (List.getElem?_eq_some_iff.mp hscr).1
        refine ⟨scr, hscr, fun hne => hmoves drag.idx scr _ hscr ?_ hne⟩
        rw [hkept, List.getElem?_set_self hlt]
      · cases hstop : f.dragStopped with
        | true => exact .inl hstop
        | false =>
            refine .inr fun drag pos scr hdrag hpos hscr => ?_
            rw [movedScreens_of_drag hdrag hpos, hscr, Option.map_some, Option.some.injEq] at hmoved
            have hlt := (List.getElem?_eq_some_iff.mp hscr).1
            have hsame := harranged.rects
            rw [hstop, Bool.false_and, if_neg Bool.false_ne_true, hrects, hkept, ← hmoved] at hsame
            have hat := congrArg (·[drag.idx]?) hsame
            simp only [rects, List.getElem?_map, List.getElem?_set_self hlt, hscr,
              Option.map_some, Option.some.injEq] at hat
            exact hat

/-- A drag that is held moves no other screen. -/
theorem Held.movedScreens (h : s.Held g f) :
    ∃ screens, s.movedScreens g f = some screens ∧
      ∀ (i : ℕ) (a b : Screen), s.config.screens[i]? = some a → screens[i]? = some b →
        b.position ≠ a.position → s.grabbedIn g f = some a.name := by
  obtain hstill | ⟨drag, pos, hdrag, hpos⟩ := still_or_drag (g := g) (s := s) (f := f)
  · refine ⟨_, movedScreens_of_still hstill, fun i a b ha hb hne => ?_⟩
    rw [ha, Option.some.injEq] at hb
    exact absurd (congrArg Screen.position hb.symm) hne
  · -- only the place of the drag is written
    obtain ⟨scr, hscr, hgrabbed⟩ := h drag pos hdrag hpos
    refine ⟨_, by rw [movedScreens_of_drag hdrag hpos, hscr, Option.map_some],
      fun i a b ha hb hne => ?_⟩
    rw [List.getElem?_set] at hb
    split at hb
    · next hi =>
      -- this is the screen of the drag
      subst hi
      rw [ha, Option.some.injEq] at hscr
      subst hscr
      split at hb
      · rw [← Option.some.inj hb] at hne
        exact hgrabbed hne
      · cases hb
    · rw [ha, Option.some.injEq] at hb
      exact absurd (congrArg Screen.position hb.symm) hne

/-- Rectangles that are not made again are still those of the screens. -/
theorem Settled.rects_eq (h : s.Settled g f) {screens : List Screen}
    (hmoved : s.movedScreens g f = some screens)
    (hgoing : ¬ (f.dragStopped && (s.drag g f).isSome) = true) :
    s.rects g f = screens.map (g.rect (s.origin g f)) := by
  obtain hstill | ⟨drag, pos, hdrag, hpos⟩ := still_or_drag (g := g) (s := s) (f := f)
  · rw [movedScreens_of_still hstill, Option.some.injEq] at hmoved
    rw [← hmoved, rects]
  · obtain hstop | hsame := h
    · exact absurd (by rw [hstop, hdrag]; rfl) hgoing
    · rw [movedScreens_of_drag hdrag hpos, Option.map_eq_some_iff] at hmoved
      obtain ⟨scr, hscr, rfl⟩ := hmoved
      rw [List.map_set, hsame drag pos scr hdrag hpos hscr]
      obtain ⟨hlt, rfl⟩ := List.getElem?_eq_some_iff.mp hscr
      rw [← List.map_set, List.set_getElem_self, rects]

/-- What makes a frame safe: the three conditions together. -/
theorem safe_of_careful (hpending : s.editor.pendingDelete = none) (hheld : s.Held g f)
    (hsettled : s.Settled g f) (hundeleted : s.Undeleted g f) : s.Safe g f := by
  obtain ⟨screens, hmoved, hmoves⟩ := hheld.movedScreens
  obtain ⟨canvas, harrange, harranged⟩ := LayoutEditor.arrange_of_movedScreens hpending hmoved
  have hkept := harranged.kept hundeleted
  have hrects : canvas.rects = canvas.config.screens.map (g.rect (s.origin g f)) := by
    rw [hkept, harranged.rects]
    split
    · rfl
    · next hgoing => exact hsettled.rects_eq hmoved hgoing
  have hcount : canvas.rects.length = canvas.config.screens.length := by
    rw [hrects, List.length_map]
  refine ⟨LayoutEditor.showFrame_isSome harrange hcount, canvas, harrange, hrects, ?_⟩
  rw [hkept]
  exact hmoves

/-- **A frame is safe exactly if the drag holds its screen, the rectangles follow it and nothing is
deleted.** -/
theorem safe_iff (hpending : s.editor.pendingDelete = none) :
    s.Safe g f ↔ s.Held g f ∧ s.Settled g f ∧ s.Undeleted g f :=
  ⟨Safe.careful hpending, fun ⟨hheld, hsettled, hundeleted⟩ =>
    safe_of_careful hpending hheld hsettled hundeleted⟩

/-! ## Runs -/

variable (g) in
/-- An editor that fails takes the session with it. -/
def step : Option (Editing Vec) → EditingInput Pos Vec → Option (Editing Vec)
  | none, _ => none
  | some s, .frame f =>
      (LayoutEditor.showFrame g s.editor s.config f).map fun r => ⟨r.1, r.2.1, s.grabbedIn g f⟩
  | some s, .replace c => some { s with config := c }
  | some s, .resetView => some { s with editor := s.editor.resetView g }

variable (g) in
/-- The editor with its document after so many inputs, or nothing if a frame has failed. -/
def after (c : Config) (inputs : List (EditingInput Pos Vec)) (n : ℕ) : Option (Editing Vec) :=
  Run.after (step g) (some ⟨LayoutEditor.fresh g, c, none⟩) inputs n

/-- A frame that ends leaves what `Arranged` says, with the name of the screen that was grabbed. -/
theorem step_frame {s' : Editing Vec} (hpending : s.editor.pendingDelete = none)
    (h : step g (some s) (.frame f) = some s') :
    ∃ screens canvas, s.movedScreens g f = some screens ∧
      LayoutEditor.Arranged g s f screens canvas ∧ s'.editor = canvas.editor ∧
      s'.config.screens = canvas.config.screens ∧ s'.grabbed = s.grabbedIn g f := by
  rw [step, Option.map_eq_some_iff] at h
  obtain ⟨r, hshow, rfl⟩ := h
  obtain ⟨canvas, harrange, heditor, hscreens⟩ := LayoutEditor.showFrame_some hshow
  cases hmoved : s.movedScreens g f with
  | none =>
      rw [LayoutEditor.arrange_of_movedScreens_none hmoved] at harrange
      cases harrange
  | some screens =>
      obtain ⟨canvas', harrange', harranged⟩ :=
        LayoutEditor.arrange_of_movedScreens hpending hmoved
      obtain rfl : canvas' = canvas := Option.some.inj (harrange'.symm.trans harrange)
      exact ⟨screens, canvas', rfl, harranged, heditor, hscreens, rfl⟩

/-- No deletion is left for the next frame, at any moment of a session. -/
theorem pendingDelete_after {c : Config} {inputs : List (EditingInput Pos Vec)} (n : ℕ) :
    ∀ s, after g c inputs n = some s → s.editor.pendingDelete = none := by
  refine Run.invariant
    (P := fun o : Option (Editing Vec) => ∀ s, o = some s → s.editor.pendingDelete = none) ?_ ?_ n
  · intro s h
    rw [← Option.some.inj h]
    rfl
  · intro n a _ ih s' h
    generalize Run.after (step g) _ inputs n = o at ih h
    cases o with
    | none => cases h
    | some s =>
        have hpending := ih s rfl
        cases a with
        | frame f =>
            obtain ⟨_, canvas, -, harranged, heditor, -, -⟩ := step_frame hpending h
            rw [heditor]
            exact harranged.pending
        | replace c =>
            rw [← Option.some.inj h]
            exact hpending
        | resetView =>
            rw [← Option.some.inj h]
            exact hpending

/-! ## The screen of a drag -/

/-- The index of a drag is that of the screen it was begun on. -/
def Tracks (s : Editing Vec) : Prop :=
  ∀ drag, s.editor.dragging = some drag →
    ∃ scr, s.config.screens[drag.idx]? = some scr ∧ s.grabbed = some scr.name

variable (g) in
/-- The screen of a drag stays where it is in the list, and its rectangle is made again. -/
def Keeps (s : Editing Vec) : EditingInput Pos Vec → Prop
  | .frame f => s.Settled g f ∧ s.Undeleted g f
  | .replace c => ∀ drag, s.editor.dragging = some drag →
      c.screens[drag.idx]?.map Screen.name = s.config.screens[drag.idx]?.map Screen.name
  | .resetView => True

/-- In a frame the drag in force is on its screen too. -/
theorem Tracks.drag (h : s.Tracks) {drag : DragState Vec} (hdrag : s.drag g f = some drag) :
    ∃ scr, s.config.screens[drag.idx]? = some scr ∧ s.grabbedIn g f = some scr.name := by
  unfold Editing.drag at hdrag
  unfold grabbedIn
  cases hgrabs : s.grabs g f with
  | none =>
      rw [hgrabs] at hdrag
      exact h drag hdrag
  | some idx =>
      rw [hgrabs] at hdrag
      cases hpress : f.pressOrigin with
      | none =>
          -- nothing is grabbed without a press
          rw [grabs, hpress, Option.isSome_none, Bool.and_false] at hgrabs
          cases hgrabs
      | some p =>
          rw [hpress, Option.map_eq_some_iff] at hdrag
          obtain ⟨r, hr, rfl⟩ := hdrag
          have hlt := (List.getElem?_eq_some_iff.mp hr).1
          rw [rects, List.length_map] at hlt
          have hscr := List.getElem?_eq_getElem hlt
          exact ⟨_, hscr, congrArg (Option.map Screen.name) hscr⟩

/-- A drag that tracks its screen is held, whatever the frame. -/
theorem Tracks.held (h : s.Tracks) : s.Held g f := by
  intro drag pos hdrag _
  obtain ⟨scr, hscr, hname⟩ := h.drag hdrag
  exact ⟨scr, hscr, fun _ => hname⟩

/-- Screens are moved under their names, which stay in their order. -/
theorem name_movedScreens {screens : List Screen} (h : s.movedScreens g f = some screens) :
    screens.map Screen.name = s.config.screens.map Screen.name := by
  obtain hstill | ⟨drag, pos, hdrag, hpos⟩ := still_or_drag (g := g) (s := s) (f := f)
  · rw [movedScreens_of_still hstill, Option.some.injEq] at h
    rw [h]
  · rw [movedScreens_of_drag hdrag hpos, Option.map_eq_some_iff] at h
    obtain ⟨scr, hscr, rfl⟩ := h
    obtain ⟨hlt, rfl⟩ := List.getElem?_eq_some_iff.mp hscr
    rw [List.map_set]
    show (s.config.screens.map Screen.name).set drag.idx (s.config.screens[drag.idx]).name = _
    rw [← List.map_set, List.set_getElem_self]

/-- An input that keeps the screen of the drag leaves it tracked. -/
theorem Tracks.step {a : EditingInput Pos Vec} {s' : Editing Vec} (h : s.Tracks)
    (hpending : s.editor.pendingDelete = none) (hkeeps : s.Keeps g a)
    (hstep : step g (some s) a = some s') : s'.Tracks := by
  intro drag hdrag
  cases a with
  | frame f =>
      obtain ⟨screens, canvas, hmoved, harranged, heditor, hscreens, hgrabbed⟩ :=
        step_frame hpending hstep
      rw [heditor, harranged.dragging] at hdrag
      split at hdrag
      · cases hdrag
      · obtain ⟨scr, hscr, hname⟩ := h.drag hdrag
        have hat := congrArg (·[drag.idx]?) (name_movedScreens hmoved)
        simp only [List.getElem?_map, hscr, Option.map_some, Option.map_eq_some_iff] at hat
        obtain ⟨scr', hscr', hname'⟩ := hat
        refine ⟨scr', ?_, ?_⟩
        · rw [hscreens, harranged.kept hkeeps.2, hscr']
        · rw [hgrabbed, hname, hname']
  | replace c =>
      rw [← Option.some.inj hstep] at hdrag ⊢
      obtain ⟨scr, hscr, hname⟩ := h drag hdrag
      have hat := hkeeps drag hdrag
      rw [hscr, Option.map_some, Option.map_eq_some_iff] at hat
      obtain ⟨scr', hscr', hname'⟩ := hat
      exact ⟨scr', hscr', by rw [← hname'] at hname; exact hname⟩
  | resetView =>
      rw [← Option.some.inj hstep] at hdrag ⊢
      exact h drag hdrag

/-! ## Whole sessions -/

section Session

variable (g) (c : Config) (inputs : List (EditingInput Pos Vec))

/-- Every state is reached, and its frame is safe. -/
def SafeThroughout : Prop :=
  ∀ n, ∃ s, after g c inputs n = some s ∧ ∀ f, inputs[n]? = some (.frame f) → s.Safe g f

variable {g c inputs}

/-- If every frame of a session is safe, none of them fails and every state is reached. -/
theorem safeThroughout_of_safe
    (h : ∀ n s, after g c inputs n = some s → ∀ f, inputs[n]? = some (.frame f) → s.Safe g f) :
    SafeThroughout g c inputs := by
  have hreached : ∀ n, ∃ s, after g c inputs n = some s := by
    refine Run.invariant (P := fun o => ∃ s, o = some s) ⟨_, rfl⟩ fun n a ha ⟨s, hs⟩ => ?_
    rw [hs]
    cases a with
    | frame f =>
        obtain ⟨r, hr⟩ := Option.isSome_iff_exists.mp (h n s hs f ha).1
        exact ⟨_, by rw [step, hr, Option.map_some]⟩
    | replace c => exact ⟨_, rfl⟩
    | resetView => exact ⟨_, rfl⟩
  intro n
  obtain ⟨s, hs⟩ := hreached n
  exact ⟨s, hs, h n s hs⟩

/-- A drag is on its screen for as long as every input keeps it there. -/
theorem tracks_after
    (h : ∀ n s, after g c inputs n = some s → ∀ a, inputs[n]? = some a → s.Keeps g a) (n : ℕ) :
    ∀ s, after g c inputs n = some s → s.Tracks := by
  refine Run.invariant (P := fun o : Option (Editing Vec) => ∀ s, o = some s → s.Tracks) ?_ ?_ n
  · intro s hs drag hdrag
    rw [← Option.some.inj hs] at hdrag
    cases hdrag
  · intro n a ha ih s' hs'
    cases hafter : Run.after (step g) (some ⟨LayoutEditor.fresh g, c, none⟩) inputs n with
    | none =>
        rw [hafter] at hs'
        cases hs'
    | some s =>
        rw [hafter] at hs'
        exact (ih s hafter).step (pendingDelete_after n s hafter) (h n s hafter a ha) hs'

end Session

/-- **The layout editor is index-safe and links the right screens** in exactly the sessions in which
every frame finds its drag on the grabbed screen, makes the links from rectangles that have followed
it, and deletes nothing. The first of these holds if no replaced document moves the screen of a
drag. -/
theorem layout_safe_iff (g : Geometry Pos Vec Rect) (c : Config)
    (inputs : List (EditingInput Pos Vec)) :
    (SafeThroughout g c inputs ↔
      ∀ n s, after g c inputs n = some s → ∀ f, inputs[n]? = some (.frame f) →
        s.Held g f ∧ s.Settled g f ∧ s.Undeleted g f) ∧
      ((∀ n s, after g c inputs n = some s → ∀ a, inputs[n]? = some a → s.Keeps g a) →
        SafeThroughout g c inputs) := by
  refine ⟨⟨fun h n s hs f hf => ?_, fun h => ?_⟩, fun h => ?_⟩
  · obtain ⟨s', hs', hsafe⟩ := h n
    obtain rfl : s' = s := Option.some.inj (hs'.symm.trans hs)
    exact (safe_iff (pendingDelete_after n s' hs)).mp (hsafe f hf)
  · exact safeThroughout_of_safe fun n s hs f hf =>
      (safe_iff (pendingDelete_after n s hs)).mpr (h n s hs f hf)
  · refine safeThroughout_of_safe fun n s hs f hf => ?_
    obtain ⟨hsettled, hundeleted⟩ := h n s hs (.frame f) hf
    exact (safe_iff (pendingDelete_after n s hs)).mpr
      ⟨(tracks_after h n s hs).held, hsettled, hundeleted⟩

/-- Whole pixels as the arithmetic, for screens without monitors. -/
def pixels : Geometry (Int × Int) (Int × Int) ((Int × Int) × (Int × Int)) where
  zero := (0, 0)
  origin center pan := center + pan
  panBy pan delta := pan + delta
  rect origin s :=
    let min := origin + (s.position.x, s.position.y)
    (min, min + ((s.position.w : Int), (s.position.h : Int)))
  contains r p := r.1.1 ≤ p.1 && p.1 ≤ r.2.1 && r.1.2 ≤ p.2 && p.2 ≤ r.2.2
  offset p r := p - r.1
  snapped pos offset origin :=
    let p := pos - offset - origin
    ((p.1 + 10) / 20 * 20, (p.2 + 10) / 20 * 20)
  touch a b :=
    if (a.2.1 - b.1.1).natAbs < 14 ∧ max a.1.2 b.1.2 < min a.2.2 b.2.2 then some .right
    else if (a.2.2 - b.1.2).natAbs < 14 ∧ max a.1.1 b.1.1 < min a.2.1 b.2.1 then some .down
    else none

/-- A document with one screen of 160 by 120. -/
def desk : Config := { Config.default with screens := [⟨"desk", [], ⟨0, 0, 160, 120⟩, []⟩] }

/-- A screen is deleted from its context menu, and the frame is not safe. -/
theorem delete_fails : ¬ ∀ c inputs, SafeThroughout pixels c inputs := by
  intro h
  obtain ⟨s, hs, -⟩ :=
    h desk [.frame ⟨(400, 300), none, some (420, 320), none, false, false, true, true⟩] 1
  have hnone : (after pixels desk
      [.frame ⟨(400, 300), none, some (420, 320), none, false, false, true, true⟩] 1).isNone = true := by
    decide
  rw [hs] at hnone
  cases hnone

end Editing

end Synbad
