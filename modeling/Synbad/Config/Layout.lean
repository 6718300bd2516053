import Synbad.Config.Core
import Synbad.Lib.Lines
import Mathlib.Data.Multiset.Basic

/-! # The generated layout file

`generate_synergy_conf` writes names, aliases and options as they are into a line-oriented file. This
module reads such a file by its own grammar (`SynergyConf.parse`), says which layout a document means
(`Config.layout`), and finds exactly the documents whose file means that layout and no other.

Several things can go wrong. A line break in a text makes two lines of one. A name that begins with a
tab makes its header look like an entry, an alias or an edge, of the group above. A key that contains
` = ` is cut short, and an option `clipboardSharing = false` looks like the clipboard setting. The
file names the screen that a group of aliases belongs to, so where several screens share a name and
only some of them have aliases it does not say which; a reader that is to recover the aliases of each
screen has to give up there.

`Encodable` excludes these and nothing else: `synergyConf_faithful_iff` says that an accepted document
is read back exactly if it is encodable. The proof follows the file section by section; texts are kept
as their characters. -/

namespace Synbad

/-! ## The grammar -/

/-- The layout that a file describes: the names of the screens, the aliases of each screen in the order
of the screens, the edges between names, and the options with the clipboard setting. -/
structure Layout where
  screens : List (List Char)
  aliases : List (List (List Char))
  edges : Multiset (List Char × Side × List Char)
  options : List (List Char × List Char)
  clipboardSharing : Bool

namespace SynergyConf

/-- A header `<name>:` after one tab: its name, whatever characters are in it. -/
def header (line : List Char) : Option (List Char) :=
  (['\t'].isPrefixOf? line).bind fun rest => [':'].isSuffixOf? rest

/-- An edge `<side>(0,100) = <to>(0,100)` that leaves by the given side, with the name it leads to. -/
def edgeOf (text : List Char) (side : Side) : Option (Side × List Char) :=
  ((side.asSynergy.toList ++ "(0,100) = ".toList).isPrefixOf? text).bind fun rest =>
    ("(0,100)".toList.isSuffixOf? rest).map fun target => (side, target)

/-- An edge, whichever of the four sides it leaves from. -/
def edge (text : List Char) : Option (Side × List Char) :=
  [Side.left, .right, .up, .down].findSome? (edgeOf text)

/-- `<key> = <value>` after one tab; the first ` = ` ends the key. -/
def option (line : List Char) : Option (List Char × List Char) :=
  (['\t'].isPrefixOf? line).bind fun rest => rest.dropInfix? " = ".toList

/-- Headers with the entries below them, read from the last line up: the entries still without a
header, and the groups so far. A line with two tabs is an entry. -/
def groupsFrom {α : Type} (entry : List Char → Option α) :
    List (List Char) → Option (List α × List (List Char × List α))
  | [] => some ([], [])
  | line :: rest => do
      let (pending, groups) ← groupsFrom entry rest
      match ['\t', '\t'].isPrefixOf? line with
      | some text => do
          let x ← entry text
          some (x :: pending, groups)
      | none => do
          let name ← header line
          some ([], (name, pending) :: groups)

/-- The groups of a section: every entry has a header above it. -/
def groups {α : Type} (entry : List Char → Option α) (body : List (List Char)) :
    Option (List (List Char × List α)) := do
  let (pending, groups) ← groupsFrom entry body
  if pending.isEmpty then some groups else none

/-- The sections of a file, each with its name and its lines up to `end`; between sections only
blank lines and comments. The first argument is the section being read. -/
def sections : Option (List Char × List (List Char)) → List (List Char) →
    Option (List (List Char × List (List Char)))
  | none, [] => some []
  | some _, [] => none
  | none, line :: rest =>
      if line = [] ∨ line.head? = some '#' then sections none rest
      else ("section: ".toList.isPrefixOf? line).bind fun name => sections (some (name, [])) rest
  | some (name, body), line :: rest =>
      if line = "end".toList then (sections none rest).map ((name, body) :: ·)
      else sections (some (name, body ++ [line])) rest

/-- What the four kinds of sections say, in the order of the file: names, groups of aliases, groups of
edges, and options. -/
structure Content where
  screens : List (List Char)
  aliases : List (List Char × List (List Char))
  links : List (List Char × List (Side × List Char))
  options : List (List Char × List Char)

/-- Read one more section by what its name says it holds; a section of another name, or one with a
line that does not belong in it, is refused. -/
def readSection (c : Content) (sec : List Char × List (List Char)) : Option Content :=
  if sec.1 = "screens".toList then
    (sec.2.mapM header).map fun names => { c with screens := c.screens ++ names }
  else if sec.1 = "aliases".toList then
    (groups some sec.2).map fun gs => { c with aliases := c.aliases ++ gs }
  else if sec.1 = "links".toList then
    (groups edge sec.2).map fun gs => { c with links := c.links ++ gs }
  else if sec.1 = "options".toList then
    (sec.2.mapM option).map fun kvs => { c with options := c.options ++ kvs }
  else none

/-- The edges of all groups one after the other, each with its source in front. -/
def edges (gs : List (List Char × List (Side × List Char))) :
    List (List Char × Side × List Char) :=
  gs.flatMap fun g => g.2.map fun e => (g.1, e.1, e.2)

/-- A leading `clipboardSharing = false` is the clipboard setting and not an option. -/
def clipboardOff : List Char × List Char := ("clipboardSharing".toList, "false".toList)

/-- Whose aliases the groups are is clear: a name that heads groups heads one for each of its screens. -/
def Attributed (names : List (List Char)) (gs : List (List Char × List (List Char))) : Prop :=
  ∀ g ∈ gs, (gs.map Prod.fst).count g.1 = names.count g.1

/-- Whether the groups of a section can be attributed to the screens can be computed. -/
instance (names : List (List Char)) (gs : List (List Char × List (List Char))) :
    Decidable (Attributed names gs) :=
  inferInstanceAs (Decidable (∀ g ∈ gs, (gs.map Prod.fst).count g.1 = names.count g.1))

/-- Screen by screen the aliases of the next group with its name, if there is one. -/
def deal : List (List Char) → List (List Char × List (List Char)) → List (List (List Char))
  | [], _ => []
  | name :: names, gs =>
      match gs.find? fun g => g.1 = name with
      | none => [] :: deal names gs
      | some g => g.2 :: deal names (gs.eraseP fun g => g.1 = name)

/-- The layout of a file's content, if it is clear whose the aliases are. -/
def Content.layout (c : Content) : Option Layout :=
  if Attributed c.screens c.aliases then
    some
      { screens := c.screens
        aliases := deal c.screens c.aliases
        edges := edges c.links
        options := if c.options.head? = some clipboardOff then c.options.tail else c.options
        clipboardSharing := c.options.head? ≠ some clipboardOff }
  else none

/-- **Read a file** by its section grammar: its lines are divided into sections, each is read as what
it is, and the layout is made of the content. -/
def parse (text : List Char) : Option Layout :=
  ((sections none (Lines.lines '\n' text)).bind fun secs =>
    secs.foldlM readSection ⟨[], [], [], []⟩).bind Content.layout

end SynergyConf

/-! ## What a document means -/

namespace Config

/-- The aliases under each screen that has any, in the order of the screens. -/
def aliasGroups (c : Config) : List (List Char × List (List Char)) :=
  (c.screens.filter fun s => !s.aliases.isEmpty).map fun s =>
    (s.name.toList, s.aliases.map String.toList)

/-- Every link and its reverse, in the order of the links. -/
def edges (c : Config) : List (String × Side × String) :=
  c.links.flatMap fun l => [(l.from, l.side, l.to), (l.to, l.side.opposite, l.from)]

/-- The options as texts, in the order of their keys. -/
def optionTexts (c : Config) : List (List Char × List Char) :=
  c.options.entries.map fun kv => (kv.1.toList, kv.2.toList)

/-- The layout that a document means, which is what a reader of its file is to find. -/
def layout (c : Config) : Layout where
  screens := c.screens.map fun s => s.name.toList
  aliases := c.screens.map fun s => s.aliases.map String.toList
  edges := (c.edges.map fun e => (e.1.toList, e.2.1, e.2.2.toList) : List _)
  options := c.optionTexts
  clipboardSharing := c.clipboardSharing

/-- No text of the document has a line break. -/
structure Unbroken (c : Config) : Prop where
  names : ∀ s ∈ c.screens, '\n' ∉ s.name.toList
  aliases : ∀ s ∈ c.screens, ∀ a ∈ s.aliases, '\n' ∉ a.toList
  options : ∀ kv ∈ c.options.entries, '\n' ∉ kv.1.toList ∧ '\n' ∉ kv.2.toList

/-- **The document can be encoded**: no text has a line break, screens of one name all have aliases or
all have none, a name that heads a group does not begin with a tab, no key runs into the ` = ` after
it, and the options do not begin with what stands for a clipboard switched off unless it is. -/
structure Encodable (c : Config) : Prop extends Unbroken c where
  namesakes : ∀ s ∈ c.screens, ∀ t ∈ c.screens, s.name = t.name → s.aliases ≠ [] → t.aliases ≠ []
  aliased : ∀ s ∈ c.screens, s.aliases ≠ [] → s.name.toList.head? ≠ some '\t'
  linked : ∀ l ∈ c.links, l.from.toList.head? ≠ some '\t' ∧ l.to.toList.head? ≠ some '\t'
  plain : ∀ kv ∈ c.options.entries, ¬ " = ".toList <:+: kv.1.toList ++ " =".toList
  clipboard : c.clipboardSharing = true →
    c.options.entries.head? ≠ some ("clipboardSharing", "false")

end Config

/-! ## The lines of a generated file -/

namespace SynergyConf

/-- A header and the entries below it, each with two tabs in front. -/
def groupLines (name : List Char) (entries : List (List Char)) : List (List Char) :=
  ('\t' :: name ++ [':']) :: entries.map (['\t', '\t'] ++ ·)

/-- A section with its body, between the line that names it and `end`. -/
def sectionLines (name : String) (body : List (List Char)) : List (List Char) :=
  ("section: ".toList ++ name.toList) :: body ++ ["end".toList]

/-- The text of an edge, with the whole of both sides: `<side>(0,100) = <to>(0,100)`. -/
def edgeText (e : Side × List Char) : List Char :=
  e.1.asSynergy.toList ++ "(0,100) = ".toList ++ e.2 ++ "(0,100)".toList

/-- The line of an option: `<key> = <value>` after one tab. -/
def optionLine (kv : List Char × List Char) : List Char := '\t' :: (kv.1 ++ " = ".toList ++ kv.2)

end SynergyConf

namespace Config

open SynergyConf

/-- The first line of every generated file, a comment. -/
def banner : String := "# Generated by Synbad. DO NOT EDIT — regenerated from config.toml."

/-- The lines of the screens: a header for each. -/
def screenLines (c : Config) : List (List Char) :=
  c.screens.map fun s => '\t' :: s.name.toList ++ [':']

/-- The lines of the aliases: a group for each screen that has some. -/
def aliasLines (c : Config) : List (List Char) := c.aliasGroups.flatMap fun g => groupLines g.1 g.2

/-- The edges by source screen, as texts, in the order in which the file has them. -/
def linkGroups (c : Config) : List (List Char × List (Side × List Char)) :=
  (edgesByFrom c.links).map fun g => (g.1.toList, g.2.map fun e => (e.1, e.2.toList))

/-- The lines of the links: a group for each screen that an edge leaves. -/
def linkLines (c : Config) : List (List Char) :=
  c.linkGroups.flatMap fun g => groupLines g.1 (g.2.map edgeText)

/-- The options with the clipboard setting before them if it is off. -/
def writtenOptions (c : Config) : List (List Char × List Char) :=
  (if c.clipboardSharing then [] else [clipboardOff]) ++ c.optionTexts

/-- The lines of the options, that of the clipboard in front. -/
def optionLines (c : Config) : List (List Char) := c.writtenOptions.map optionLine

/-- The lines of the generated file: the comment, the screens, and each further section if there is
something in it, with blank lines between them. -/
def confLines (c : Config) : List (List Char) :=
  [banner.toList, []] ++ (sectionLines "screens" c.screenLines ++ [[]]) ++
    (if c.aliasLines.isEmpty then [] else sectionLines "aliases" c.aliasLines ++ [[]]) ++
    (if c.linkLines.isEmpty then [] else sectionLines "links" c.linkLines ++ [[]]) ++
    if c.optionLines.isEmpty then [] else sectionLines "options" c.optionLines

/-- No group is empty: every header has a line of its own. -/
theorem flatMap_groupLines_isEmpty {β : Type} (gs : List β) (name : β → List Char)
    (entries : β → List (List Char)) :
    (gs.flatMap fun g => groupLines (name g) (entries g)).isEmpty = gs.isEmpty := by
  cases gs <;> rfl

/-- There is a group once an edge has been added. -/
theorem pushEdge_ne_nil (source : String) (edge : Side × String)
    (gs : List (String × List (Side × String))) : pushEdge source edge gs ≠ [] := by
  cases gs with
  | nil => nofun
  | cons g gs =>
      simp only [pushEdge]
      split
      · nofun
      · split <;> nofun

/-- There are lines for links exactly if there are links. -/
theorem linkLines_isEmpty (c : Config) : c.linkLines.isEmpty = c.links.isEmpty := by
  have hgroups : (edgesByFrom c.links).isEmpty = c.links.isEmpty := by
    rcases List.eq_nil_or_concat c.links with h | ⟨ls, l, h⟩
    · rw [h]
      rfl
    · have hne : edgesByFrom (ls ++ [l]) ≠ [] := by
        rw [edgesByFrom, List.foldl_append]
        exact pushEdge_ne_nil _ _ _
      rw [h, List.concat_eq_append, List.isEmpty_eq_false_iff.mpr hne]
      simp
  rw [linkLines, flatMap_groupLines_isEmpty, linkGroups, List.isEmpty_map, hgroups]

/-- There are lines for aliases exactly if a screen has an alias. -/
theorem aliasLines_isEmpty (c : Config) :
    c.aliasLines.isEmpty = !(c.screens.any fun s => !s.aliases.isEmpty) := by
  rw [aliasLines, flatMap_groupLines_isEmpty, aliasGroups, List.isEmpty_map]
  induction c.screens with
  | nil => rfl
  | cons s screens ih =>
      rw [List.filter_cons, List.any_cons]
      cases h : s.aliases.isEmpty
      · rfl
      · simpa using ih

/-- There are lines for options exactly if there is an option or the clipboard is off. -/
theorem optionLines_isEmpty (c : Config) :
    c.optionLines.isEmpty = (c.options.entries.isEmpty && c.clipboardSharing) := by
  rw [optionLines, List.isEmpty_map, writtenOptions, optionTexts]
  cases c.clipboardSharing <;> cases c.options.entries <;> rfl

/-- One line of a generated file is its characters with a line break behind them. -/
theorem toList_writeln (line : String) : (writeln line).toList = line.toList ++ ['\n'] := by
  simp [writeln]

/-- A family of generated lines, joined into one text, is the lines of its members. -/
theorem toList_join_writeln {β : Type} (l : List β) (line : β → String) :
    (String.join (l.map fun x => writeln (line x))).toList =
      Lines.unlines '\n' (l.map fun x => (line x).toList) := by
  simp [Lines.unlines, writeln, List.flatMap_map]

/-- A family of generated blocks, joined into one text, is the lines of all blocks one after the
other. -/
theorem toList_join_blocks {β : Type} (l : List β) (text : β → String)
    (block : β → List (List Char)) (h : ∀ x ∈ l, (text x).toList = Lines.unlines '\n' (block x)) :
    (String.join (l.map text)).toList = Lines.unlines '\n' (l.flatMap block) := by
  induction l with
  | nil => rfl
  | cons x l ih =>
      rw [List.map_cons, String.join_cons, String.toList_append, List.flatMap_cons,
        Lines.unlines_append, h x List.mem_cons_self,
        ih fun y hy => h y (List.mem_cons_of_mem x hy)]

/-- The text of a header and the entries below it is the lines of the group. -/
theorem toList_group {β : Type} (name : String) (l : List β) (entry : β → String) :
    (writeln ("\t" ++ name ++ ":") ++
        String.join (l.map fun x => writeln ("\t\t" ++ entry x))).toList =
      Lines.unlines '\n' (groupLines name.toList (l.map fun x => (entry x).toList)) := by
  rw [String.toList_append, toList_join_writeln, toList_writeln]
  simp [Lines.unlines, groupLines, Function.comp_def]

/-- The text of a section around its body is the lines of the section. -/
theorem toList_section (name : String) (text : String) (body : List (List Char))
    (h : text.toList = Lines.unlines '\n' body) :
    (writeln ("section: " ++ name) ++ text ++ writeln "end").toList =
      Lines.unlines '\n' (sectionLines name body) := by
  simp only [String.toList_append, toList_writeln, h, Lines.unlines, sectionLines,
    List.flatMap_cons, List.flatMap_append, List.cons_append, List.flatMap_nil, List.append_nil,
    List.append_assoc]

/-- A blank line after a text adds an empty line to its lines. -/
theorem toList_blank {text : String} {ls : List (List Char)}
    (h : text.toList = Lines.unlines '\n' ls) :
    (text ++ writeln "").toList = Lines.unlines '\n' (ls ++ [[]]) := by
  rw [String.toList_append, h, Lines.unlines_append]
  rfl

/-- A part that is left out when it is empty. -/
theorem toList_unless {text : String} {ls : List (List Char)} {b e : Bool} (hb : e = !b)
    (h : text.toList = Lines.unlines '\n' ls) :
    (if b then text else "").toList = Lines.unlines '\n' (if e then [] else ls) := by
  subst hb
  cases b
  · rfl
  · exact h

/-- Two parts that are written one after the other have the lines of the first and then those of the
second. -/
theorem toList_parts {a b : String} {ls ks : List (List Char)} (ha : a.toList = Lines.unlines '\n' ls)
    (hb : b.toList = Lines.unlines '\n' ks) : (a ++ b).toList = Lines.unlines '\n' (ls ++ ks) := by
  rw [String.toList_append, ha, hb, Lines.unlines_append]

/-- The text of the screens is that of their lines. -/
theorem toList_screens (c : Config) :
    (String.join (c.screens.map fun s => writeln ("\t" ++ s.name ++ ":"))).toList =
      Lines.unlines '\n' c.screenLines := by
  rw [toList_join_writeln, screenLines]
  congr 1
  refine List.map_congr_left fun s _ => ?_
  simp

/-- The text of the aliases is that of their lines. -/
theorem toList_aliases (c : Config) :
    (String.join (c.screens.map fun s =>
      if s.aliases.isEmpty then ""
      else writeln ("\t" ++ s.name ++ ":") ++
        String.join (s.aliases.map fun a => writeln ("\t\t" ++ a)))).toList =
      Lines.unlines '\n' c.aliasLines := by
  rw [toList_join_blocks _ _ fun s => if s.aliases.isEmpty then []
    else groupLines s.name.toList (s.aliases.map String.toList)]
  · rw [aliasLines, aliasGroups, List.flatMap_map]
    congr 1
    -- a screen without aliases gives no lines, whether it is filtered out before or not
    induction c.screens with
    | nil => rfl
    | cons s screens ih =>
        rw [List.flatMap_cons, ih, List.filter_cons]
        cases h : s.aliases.isEmpty <;> simp
  · intro s _
    split
    · rfl
    · exact toList_group s.name s.aliases id

/-- The text of the links is that of their lines. -/
theorem toList_links (c : Config) :
    (String.join ((edgesByFrom c.links).map fun group =>
      writeln ("\t" ++ group.1 ++ ":") ++
        String.join (group.2.map fun e =>
          writeln ("\t\t" ++ e.1.asSynergy ++ "(0,100) = " ++ e.2 ++ "(0,100)")))).toList =
      Lines.unlines '\n' c.linkLines := by
  rw [toList_join_blocks _ _ fun g => groupLines g.1.toList (g.2.map fun e =>
    edgeText (e.1, e.2.toList))]
  · rw [linkLines, linkGroups, List.flatMap_map]
    simp only [List.map_map, Function.comp_def]
  · intro g _
    have hentry : ∀ e : Side × String,
        "\t\t" ++ e.1.asSynergy ++ "(0,100) = " ++ e.2 ++ "(0,100)" =
          "\t\t" ++ (e.1.asSynergy ++ "(0,100) = " ++ e.2 ++ "(0,100)") := by
      intro e
      simp only [String.append_assoc]
    simp only [hentry]
    rw [toList_group]
    simp only [edgeText, String.toList_append]

/-- The text of the options is that of their lines. -/
theorem toList_options (c : Config) :
    ((if !c.clipboardSharing then writeln "\tclipboardSharing = false" else "") ++
      String.join (c.options.entries.map fun kv => writeln ("\t" ++ kv.1 ++ " = " ++ kv.2))).toList =
      Lines.unlines '\n' c.optionLines := by
  rw [String.toList_append, toList_join_writeln, optionLines, writtenOptions, optionTexts,
    List.map_append, Lines.unlines_append, List.map_map]
  congr 1
  · cases c.clipboardSharing <;> rfl
  · congr 1
    refine List.map_congr_left fun kv _ => ?_
    simp [optionLine]

/-- **The generated file is made of these lines**: its characters are those of `confLines`, each line
with a line break behind it. -/
theorem toList_generateSynergyConf (c : Config) :
    c.generateSynergyConf.toList = Lines.unlines '\n' c.confLines := by
  unfold generateSynergyConf confLines
  refine toList_parts (toList_parts (toList_parts (toList_parts rfl ?_) ?_) ?_) ?_
  · exact toList_blank (toList_section "screens" _ _ (toList_screens c))
  · exact toList_unless (aliasLines_isEmpty c)
      (toList_blank (toList_section "aliases" _ _ (toList_aliases c)))
  · rw [linkLines_isEmpty]
    cases c.links.isEmpty with
    | true => rfl
    | false => exact toList_blank (toList_section "links" _ _ (toList_links c))
  · refine toList_unless ?_ ?_
    · rw [optionLines_isEmpty]
      cases c.options.entries.isEmpty <;> cases c.clipboardSharing <;> rfl
    · rw [← toList_section "options" _ _ (toList_options c)]
      simp only [String.append_assoc]
      rfl

end Config

/-! ## Reading the lines -/

namespace SynergyConf

/-- The lines up to the first `end` belong to the section that has begun, and what follows is read
from between sections. -/
theorem sections_body {name : List Char} (body : List (List Char)) {ls : List (List Char)}
    (h : ∀ l ∈ ls, l ≠ "end".toList) (rest : List (List Char)) :
    sections (some (name, body)) (ls ++ "end".toList :: rest) =
      (sections none rest).map ((name, body ++ ls) :: ·) := by
  induction ls generalizing body with
  | nil => rw [List.nil_append, sections, if_pos rfl, List.append_nil]
  | cons l ls ih =>
      rw [List.cons_append, sections, if_neg (h l List.mem_cons_self),
        ih (body ++ [l]) fun k hk => h k (List.mem_cons_of_mem l hk), List.append_assoc]
      rfl

/-- A section none of whose lines is `end` is read as what it is, and what follows it from between
sections. -/
theorem sections_section (name : String) {body : List (List Char)}
    (h : ∀ l ∈ body, l ≠ "end".toList) (rest : List (List Char)) :
    sections none (sectionLines name body ++ rest) =
      (sections none rest).map ((name.toList, body) :: ·) := by
  have hstrip : "section: ".toList.isPrefixOf? ("section: ".toList ++ name.toList) =
      some name.toList := List.isPrefixOf?_eq_some_iff_append_eq.mpr rfl
  have hline : ¬ ("section: ".toList ++ name.toList = [] ∨
      ("section: ".toList ++ name.toList).head? = some '#') := by
    rintro (h | h) <;> cases h
  rw [sectionLines, List.cons_append, List.cons_append, sections, if_neg hline, hstrip,
    Option.bind_some, List.append_assoc, List.singleton_append, sections_body [] h, List.nil_append]

/-- A blank line between sections is skipped. -/
theorem sections_blank (rest : List (List Char)) :
    sections none ([] :: rest) = sections none rest := by
  rw [sections, if_pos (Or.inl rfl)]

/-- A section that is left out when it is empty, and the blank line after it. -/
theorem sections_unless (name : String) {body : List (List Char)}
    (h : ∀ l ∈ body, l ≠ "end".toList) (rest : List (List Char)) :
    sections none ((if body.isEmpty then [] else sectionLines name body ++ [[]]) ++ rest) =
      (sections none rest).map ((if body.isEmpty then [] else [(name.toList, body)]) ++ ·) := by
  cases hb : body.isEmpty with
  | true => simp
  | false =>
      simp only [Bool.false_eq_true, if_false, List.append_assoc, List.singleton_append]
      rw [sections_section name h, sections_blank]

/-- A line that begins with a tab does not end a section. -/
theorem ne_end_of_tab {line : List Char} (h : line.head? = some '\t') : line ≠ "end".toList := by
  rintro rfl
  cases h

/-- Reading a section that may be left out: an empty one says nothing. -/
theorem foldlM_unless {name : List Char} {body : List (List Char)} {c : Content}
    (hempty : readSection c (name, []) = some c)
    (rest : List (List Char × List (List Char))) :
    ((if body.isEmpty then [] else [(name, body)]) ++ rest).foldlM readSection c =
      (readSection c (name, body)).bind fun c => rest.foldlM readSection c := by
  cases body with
  | nil =>
      rw [hempty]
      rfl
  | cons l body => rfl

/-- A header is read as the name in it. -/
theorem header_of_name (name : List Char) : header ('\t' :: name ++ [':']) = some name := by
  simp [header, List.isPrefixOf?]

/-- The section of the screens is read by their headers. -/
theorem readSection_screens (c : Content) (body : List (List Char)) :
    readSection c ("screens".toList, body) =
      (body.mapM header).map fun names => { c with screens := c.screens ++ names } := by
  unfold readSection
  exact if_pos (Eq.refl "screens".toList)

/-- The section of the aliases is read as groups of texts. -/
theorem readSection_aliases (c : Content) (body : List (List Char)) :
    readSection c ("aliases".toList, body) =
      (groups some body).map fun gs => { c with aliases := c.aliases ++ gs } := by
  have hscreens : "aliases".toList ≠ "screens".toList := by decide
  unfold readSection
  exact (if_neg hscreens).trans (if_pos (Eq.refl "aliases".toList))

/-- The section of the links is read as groups of edges. -/
theorem readSection_links (c : Content) (body : List (List Char)) :
    readSection c ("links".toList, body) =
      (groups edge body).map fun gs => { c with links := c.links ++ gs } := by
  have hscreens : "links".toList ≠ "screens".toList := by decide
  have haliases : "links".toList ≠ "aliases".toList := by decide
  unfold readSection
  exact (if_neg hscreens).trans ((if_neg haliases).trans (if_pos (Eq.refl "links".toList)))

/-- The section of the options is read line by line. -/
theorem readSection_options (c : Content) (body : List (List Char)) :
    readSection c ("options".toList, body) =
      (body.mapM option).map fun kvs => { c with options := c.options ++ kvs } := by
  have hscreens : "options".toList ≠ "screens".toList := by decide
  have haliases : "options".toList ≠ "aliases".toList := by decide
  have hlinks : "options".toList ≠ "links".toList := by decide
  unfold readSection
  exact (if_neg hscreens).trans ((if_neg haliases).trans
    ((if_neg hlinks).trans (if_pos (Eq.refl "options".toList))))

end SynergyConf

namespace Config

open SynergyConf

/-- Every line of a body begins with a tab. -/
theorem body_tabs (c : Config) :
    ∀ l ∈ c.screenLines ++ c.aliasLines ++ c.linkLines ++ c.optionLines, l.head? = some '\t' := by
  have hgroup : ∀ {name : List Char} {entries : List (List Char)},
      ∀ l ∈ groupLines name entries, l.head? = some '\t' := by
    intro name entries l hl
    rcases List.mem_cons.mp hl with rfl | hl
    · rfl
    · obtain ⟨e, -, rfl⟩ := List.mem_map.mp hl
      rfl
  intro l hl
  simp only [List.mem_append] at hl
  rcases hl with ((hl | hl) | hl) | hl
  · obtain ⟨s, -, rfl⟩ := List.mem_map.mp hl
    rfl
  · obtain ⟨g, -, hg⟩ := List.mem_flatMap.mp hl
    exact hgroup l hg
  · obtain ⟨g, -, hg⟩ := List.mem_flatMap.mp hl
    exact hgroup l hg
  · obtain ⟨kv, -, rfl⟩ := List.mem_map.mp hl
    rfl

/-- The sections of a generated file, as far as its lines are those it was made of. -/
theorem sections_confLines (c : Config) :
    sections none c.confLines = some (("screens".toList, c.screenLines) ::
      ((if c.aliasLines.isEmpty then [] else [("aliases".toList, c.aliasLines)]) ++
        ((if c.linkLines.isEmpty then [] else [("links".toList, c.linkLines)]) ++
          ((if c.optionLines.isEmpty then [] else [("options".toList, c.optionLines)]) ++ [])))) := by
  have htabs : ∀ l ∈ c.screenLines ++ c.aliasLines ++ c.linkLines ++ c.optionLines,
      l ≠ "end".toList := fun l hl => ne_end_of_tab (c.body_tabs l hl)
  simp only [List.mem_append] at htabs
  have hbanner : ∀ rest, sections none (banner.toList :: [] :: rest) = sections none rest := by
    intro rest
    have hcomment : banner.toList = [] ∨ banner.toList.head? = some '#' := Or.inr (by decide)
    rw [sections, if_pos hcomment, sections_blank]
  have hlast : sections none (if c.optionLines.isEmpty then [] else sectionLines "options" c.optionLines) =
      some ((if c.optionLines.isEmpty then [] else [("options".toList, c.optionLines)]) ++ []) := by
    cases c.optionLines.isEmpty with
    | true => rfl
    | false =>
        have hread := sections_section "options" (fun l hl => htabs l (Or.inr hl)) []
        rw [List.append_nil] at hread
        simpa [sections] using hread
  simp only [confLines, List.cons_append, List.nil_append, List.append_assoc]
  rw [hbanner, sections_section "screens" fun l hl => htabs l (Or.inl (Or.inl (Or.inl hl))),
    sections_blank]
  have haliases := sections_unless "aliases" (fun l hl => htabs l (Or.inl (Or.inl (Or.inr hl))))
    ((if c.linkLines.isEmpty then [] else sectionLines "links" c.linkLines ++ [[]]) ++
      if c.optionLines.isEmpty then [] else sectionLines "options" c.optionLines)
  have hlinks := sections_unless "links" (fun l hl => htabs l (Or.inl (Or.inr hl)))
    (if c.optionLines.isEmpty then [] else sectionLines "options" c.optionLines)
  rw [haliases, hlinks, hlast]
  rfl

/-- The names in the screens section are read back, one for each screen and in their order. -/
theorem mapM_header_screenLines (c : Config) :
    c.screenLines.mapM header = some (c.screens.map fun s => s.name.toList) := by
  rw [screenLines]
  induction c.screens with
  | nil => rfl
  | cons s screens ih =>
      rw [List.map_cons, List.mapM_cons, header_of_name, ih]
      rfl

/-- **What is read from the generated lines**, section by section. -/
theorem parse_of_lines {c : Config} {text : List Char} (h : Lines.lines '\n' text = c.confLines) :
    parse text = (groups some c.aliasLines).bind fun as => (groups edge c.linkLines).bind fun ls =>
      (c.optionLines.mapM option).bind fun os =>
        Content.layout ⟨c.screens.map fun s => s.name.toList, as, ls, os⟩ := by
  rw [parse, h, sections_confLines, Option.bind_some, List.foldlM_cons, readSection_screens,
    mapM_header_screenLines]
  show Option.bind (List.foldlM readSection _ _) _ = _
  rw [foldlM_unless rfl, readSection_aliases]
  cases groups some c.aliasLines with
  | none => rfl
  | some as =>
      rw [Option.map_some, Option.bind_some, foldlM_unless rfl, readSection_links]
      cases groups edge c.linkLines with
      | none => rfl
      | some ls =>
          rw [Option.map_some, Option.bind_some, foldlM_unless rfl, readSection_options]
          cases c.optionLines.mapM option with
          | none => rfl
          | some os => rfl

end Config

/-! ## Groups -/

namespace SynergyConf

variable {α : Type} {entry : List Char → Option α}

/-- A header is taken for an entry exactly if its name begins with a tab. -/
theorem isPrefixOf?_header {name : List Char} :
    ['\t', '\t'].isPrefixOf? ('\t' :: name ++ [':']) = none ↔ name.head? ≠ some '\t' := by
  cases name with
  | nil => simp [List.isPrefixOf?]
  | cons a name =>
      have hcomm : '\t' ≠ a ↔ a ≠ '\t' := ne_comm
      simpa [List.isPrefixOf?] using hcomm

/-- Entries above lines that are still without a header join those without a header. -/
theorem groupsFrom_entries {render : α → List Char} {xs pending : List α}
    (h : ∀ x ∈ xs, entry (render x) = some x) {rest : List (List Char)}
    {gs : List (List Char × List α)} (hrest : groupsFrom entry rest = some (pending, gs)) :
    groupsFrom entry ((xs.map render).map (['\t', '\t'] ++ ·) ++ rest) =
      some (xs ++ pending, gs) := by
  induction xs with
  | nil => exact hrest
  | cons x xs ih =>
      have hx := h x List.mem_cons_self
      have hxs := ih fun y hy => h y (List.mem_cons_of_mem x hy)
      rw [List.map_cons, List.map_cons, List.cons_append, groupsFrom, hxs]
      simp [List.isPrefixOf?, hx]

/-- **Groups are read back** if no name is taken for an entry. -/
theorem groupsFrom_groups {render : α → List Char} {gs : List (List Char × List α)}
    (h : ∀ g ∈ gs, ∀ x ∈ g.2, entry (render x) = some x)
    (hnames : ∀ g ∈ gs, g.1.head? ≠ some '\t') :
    groupsFrom entry (gs.flatMap fun g => groupLines g.1 (g.2.map render)) = some ([], gs) := by
  induction gs with
  | nil => rfl
  | cons g gs ih =>
      have hrest := ih (fun k hk => h k (List.mem_cons_of_mem g hk))
        fun k hk => hnames k (List.mem_cons_of_mem g hk)
      have hentries := groupsFrom_entries (h g List.mem_cons_self) hrest
      have hheader := isPrefixOf?_header.mpr (hnames g List.mem_cons_self)
      rw [List.flatMap_cons, groupLines, List.cons_append, groupsFrom, hentries]
      simp only [Option.bind_eq_bind, Option.bind_some]
      rw [hheader, header_of_name, List.append_nil]
      rfl

/-- There is one group for each line that is no entry. -/
theorem length_groupsFrom {ls : List (List Char)} {pending : List α}
    {gs : List (List Char × List α)} (h : groupsFrom entry ls = some (pending, gs)) :
    gs.length = ls.countP fun l => (['\t', '\t'].isPrefixOf? l).isNone := by
  induction ls generalizing pending gs with
  | nil =>
      cases h
      rfl
  | cons l ls ih =>
      rw [groupsFrom] at h
      cases hrest : groupsFrom entry ls with
      | none =>
          rw [hrest] at h
          cases h
      | some r =>
          rw [hrest] at h
          simp only [Option.bind_eq_bind, Option.bind_some] at h
          rw [List.countP_cons, ← ih hrest]
          cases hl : ['\t', '\t'].isPrefixOf? l with
          | some text =>
              simp only [hl, Option.bind_eq_some_iff, Option.some.injEq, Prod.mk.injEq] at h
              obtain ⟨x, -, -, rfl⟩ := h
              simp
          | none =>
              simp only [hl, Option.bind_eq_some_iff, Option.some.injEq, Prod.mk.injEq] at h
              obtain ⟨name, -, -, rfl⟩ := h
              simp

/-- Every entry of a section that is read can be read. -/
theorem isSome_of_groupsFrom {ls : List (List Char)} {r : List α × List (List Char × List α)}
    (h : groupsFrom entry ls = some r) {text : List Char} (hmem : '\t' :: '\t' :: text ∈ ls) :
    (entry text).isSome = true := by
  induction ls generalizing r with
  | nil => cases hmem
  | cons l ls ih =>
      rw [groupsFrom] at h
      cases hrest : groupsFrom entry ls with
      | none =>
          rw [hrest] at h
          cases h
      | some r' =>
          rcases List.mem_cons.mp hmem with rfl | hmem
          · rw [hrest] at h
            cases hx : entry text with
            | some x => rfl
            | none => simp [List.isPrefixOf?, hx] at h
          · exact ih hrest hmem

/-- The reader of groups succeeds exactly if reading from the last line up leaves no entry without a
header. -/
theorem groups_eq_some {body : List (List Char)} {gs : List (List Char × List α)} :
    groups entry body = some gs ↔ groupsFrom entry body = some ([], gs) := by
  unfold groups
  cases groupsFrom entry body with
  | none => simp
  | some r =>
      obtain ⟨pending, gs'⟩ := r
      cases pending <;> simp

/-- The text of an edge is read back as the edge, whatever the name it leads to. -/
theorem edge_edgeText (e : Side × List Char) : edge (edgeText e) = some e := by
  obtain ⟨side, target⟩ := e
  have hsame : edgeOf (edgeText (side, target)) side = some (side, target) := by
    have hprefix : (side.asSynergy.toList ++ "(0,100) = ".toList).isPrefixOf?
        (edgeText (side, target)) = some (target ++ "(0,100)".toList) := by
      rw [List.isPrefixOf?_eq_some_iff_append_eq, edgeText]
      simp only [List.append_assoc]
    have hsuffix : "(0,100)".toList.isSuffixOf? (target ++ "(0,100)".toList) = some target :=
      List.isSuffixOf?_eq_some_iff_append_eq.mpr rfl
    rw [edgeOf, hprefix, Option.bind_some, hsuffix, Option.map_some]
  have hother : ∀ other, other ≠ side → edgeOf (edgeText (side, target)) other = none := by
    intro other hne
    rw [Option.eq_none_iff_forall_ne_some]
    intro e he
    simp only [edgeOf, Option.bind_eq_some_iff, List.isPrefixOf?_eq_some_iff_append_eq] at he
    obtain ⟨rest, htext, -⟩ := he
    -- the four sides begin with different letters
    cases other <;> cases side <;>
      first | exact absurd rfl hne | simp [Side.asSynergy, edgeText] at htext
  cases side <;> simp [edge, hsame, hother]

/-- The text of an edge ends with a bracket. -/
theorem getLast?_of_edge {text : List Char} (h : (edge text).isSome = true) :
    text.getLast? = some ')' := by
  obtain ⟨e, he⟩ := Option.isSome_iff_exists.mp h
  obtain ⟨side, -, hside⟩ := List.exists_of_findSome?_eq_some he
  simp only [edgeOf, Option.bind_eq_some_iff, Option.map_eq_some_iff,
    List.isPrefixOf?_eq_some_iff_append_eq, List.isSuffixOf?_eq_some_iff_append_eq] at hside
  obtain ⟨rest, htext, target, hrest, -⟩ := hside
  rw [← htext, ← hrest, ← List.append_assoc]
  exact List.getLast?_append_of_ne_nil _ (by decide)

end SynergyConf

/-! ## Edges -/

namespace Config

open SynergyConf

/-- The edges of the groups of a document, each with its source in front. -/
def flatGroups (gs : List (String × List (Side × String))) : List (String × Side × String) :=
  gs.flatMap fun g => g.2.map fun e => (g.1, e.1, e.2)

/-- Pushing an edge adds it to the edges of the groups, wherever the group of its source stands. -/
theorem flatGroups_pushEdge (source : String) (e : Side × String)
    (gs : List (String × List (Side × String))) :
    (flatGroups (pushEdge source e gs)).Perm ((source, e.1, e.2) :: flatGroups gs) := by
  induction gs with
  | nil => rfl
  | cons g gs ih =>
      obtain ⟨key, es⟩ := g
      rw [pushEdge]
      split
      · next hkey =>
        rw [← beq_iff_eq.mp hkey]
        simp only [flatGroups, List.flatMap_cons, List.map_append, List.map_cons, List.map_nil,
          List.append_assoc, List.singleton_append]
        exact List.perm_middle
      · split
        · rfl
        · have hkeep : ∀ ks, flatGroups ((key, es) :: ks) =
              (es.map fun e => (key, e.1, e.2)) ++ flatGroups ks := fun ks => List.flatMap_cons
          rw [hkeep, hkeep]
          exact (ih.append_left _).trans List.perm_middle

/-- **Every link and its reverse**: the groups of a generated file have exactly the edges of the
document, in some order. -/
theorem flatGroups_edgesByFrom (c : Config) : (flatGroups (edgesByFrom c.links)).Perm c.edges := by
  have hfold : ∀ (links : List Link) (gs : List (String × List (Side × String))),
      (flatGroups (links.foldl (fun groups l =>
        pushEdge l.to (l.side.opposite, l.from) (pushEdge l.from (l.side, l.to) groups)) gs)).Perm
      ((links.flatMap fun l => [(l.from, l.side, l.to), (l.to, l.side.opposite, l.from)]) ++
        flatGroups gs) := by
    intro links
    induction links with
    | nil =>
        intro gs
        rfl
    | cons l links ih =>
        intro gs
        rw [List.foldl_cons, List.flatMap_cons]
        refine (ih _).trans ?_
        have hpush := (flatGroups_pushEdge l.to (l.side.opposite, l.from) _).trans
          ((flatGroups_pushEdge l.from (l.side, l.to) gs).cons (l.to, l.side.opposite, l.from))
        refine (hpush.append_left _).trans ?_
        refine List.perm_middle.trans ((List.perm_middle.cons _).trans ?_)
        exact List.Perm.swap _ _ _
  have hall := hfold c.links []
  rw [show flatGroups [] = [] from rfl, List.append_nil] at hall
  exact hall

/-- A property of all sources and targets is kept by one more edge with ends of that kind. -/
theorem pushEdge_forall {P : String → Prop} {gs : List (String × List (Side × String))}
    {source : String} {e : Side × String} (hsource : P source) (he : P e.2)
    (hgs : ∀ g ∈ gs, P g.1 ∧ ∀ e ∈ g.2, P e.2) :
    ∀ g ∈ pushEdge source e gs, P g.1 ∧ ∀ e ∈ g.2, P e.2 := by
  have hone : ∀ e' ∈ [e], P e'.2 := by
    intro e' he'
    rw [List.mem_singleton.mp he']
    exact he
  -- induction on the groups; only one of them changes
  induction gs with
  | nil =>
      intro g hg
      rw [List.mem_singleton.mp hg]
      exact ⟨hsource, hone⟩
  | cons g gs ih =>
      rw [List.forall_mem_cons] at hgs
      have hrest := ih hgs.2
      rw [pushEdge]
      split
      · -- a group of that source is there already
        rw [List.forall_mem_cons]
        refine ⟨⟨hgs.1.1, ?_⟩, hgs.2⟩
        intro e' he'
        rcases List.mem_append.mp he' with he' | he'
        · exact hgs.1.2 e' he'
        · exact hone e' he'
      · split
        · -- a new group goes in front of those with greater names
          intro k hk
          rcases List.mem_cons.mp hk with rfl | hk
          · exact ⟨hsource, hone⟩
          · rcases List.mem_cons.mp hk with rfl | hk
            · exact hgs.1
            · exact hgs.2 k hk
        · rw [List.forall_mem_cons]
          exact ⟨hgs.1, hrest⟩

/-- A property of all ends of links holds of all sources and targets. -/
theorem edgesByFrom_forall {P : String → Prop} {links : List Link}
    (h : ∀ l ∈ links, P l.from ∧ P l.to) : ∀ g ∈ edgesByFrom links, P g.1 ∧ ∀ e ∈ g.2, P e.2 := by
  have hfold : ∀ (links : List Link) (gs : List (String × List (Side × String))),
      (∀ l ∈ links, P l.from ∧ P l.to) → (∀ g ∈ gs, P g.1 ∧ ∀ e ∈ g.2, P e.2) →
      ∀ g ∈ links.foldl (fun groups l =>
        pushEdge l.to (l.side.opposite, l.from) (pushEdge l.from (l.side, l.to) groups)) gs,
        P g.1 ∧ ∀ e ∈ g.2, P e.2 := by
    intro links
    induction links with
    | nil => intro gs _ hgs; exact hgs
    | cons l links ih =>
        intro gs hl hgs
        rw [List.forall_mem_cons] at hl
        rw [List.foldl_cons]
        -- a link is an edge either way
        have hthere := pushEdge_forall (e := (l.side, l.to)) hl.1.1 hl.1.2 hgs
        exact ih _ hl.2 (pushEdge_forall hl.1.2 hl.1.1 hthere)
  exact hfold links [] h (by simp)

/-! ## Which sections are read back -/

/-- Among the lines of groups, those that do not begin with a tab are the headers whose names do not;
counting them is how it is noticed that a header was taken for an entry. -/
theorem countP_groupLines {β : Type} (gs : List (List Char × β)) (entries : β → List (List Char)) :
    (gs.flatMap fun g => groupLines g.1 (entries g.2)).countP
        (fun l => (['\t', '\t'].isPrefixOf? l).isNone) =
      gs.countP fun g => g.1.head? ≠ some '\t' := by
  induction gs with
  | nil => rfl
  | cons g gs ih =>
      have hentries : (entries g.2).countP
          ((fun l => (['\t', '\t'].isPrefixOf? l).isNone) ∘ (['\t', '\t'] ++ ·)) = 0 := by
        rw [List.countP_eq_zero]
        simp [List.isPrefixOf?]
      have hheader : (['\t', '\t'].isPrefixOf? ('\t' :: g.1 ++ [':'])).isNone =
          decide (g.1.head? ≠ some '\t') := by
        rw [Bool.eq_iff_iff, Option.isNone_iff_eq_none, isPrefixOf?_header, decide_eq_true_iff]
      rw [List.flatMap_cons, List.countP_append, ih, groupLines, List.countP_cons, List.countP_map,
        hentries, List.countP_cons, hheader, Nat.zero_add, Nat.add_comm]

/-- What is read from the aliases has a group for each header that does not begin with a tab. -/
theorem length_of_groups_aliasLines {c : Config} {gs : List (List Char × List (List Char))}
    (h : groups some c.aliasLines = some gs) :
    gs.length = c.aliasGroups.countP fun g => g.1.head? ≠ some '\t' :=
  (length_groupsFrom (groups_eq_some.mp h)).trans (countP_groupLines c.aliasGroups fun as => as)

/-- **Aliases are read back** if no header among them is taken for an alias. -/
theorem groups_aliasLines {c : Config} (h : ∀ g ∈ c.aliasGroups, g.1.head? ≠ some '\t') :
    groups some c.aliasLines = some c.aliasGroups := by
  have hread : groupsFrom some (c.aliasGroups.flatMap fun g => groupLines g.1 (g.2.map id)) =
      some ([], c.aliasGroups) := groupsFrom_groups (fun g _ x _ => rfl) h
  simp only [List.map_id] at hread
  exact groups_eq_some.mpr hread

/-- The headers of the aliases are the names of the screens that have any. -/
theorem aliasGroups_names (c : Config) :
    (∀ g ∈ c.aliasGroups, g.1.head? ≠ some '\t') ↔
      ∀ s ∈ c.screens, s.aliases ≠ [] → s.name.toList.head? ≠ some '\t' := by
  constructor
  · intro h s hs haliases
    refine h _ (List.mem_map_of_mem (List.mem_filter.mpr ⟨hs, ?_⟩))
    simpa using haliases
  · intro h g hg
    obtain ⟨s, hs, rfl⟩ := List.mem_map.mp hg
    obtain ⟨hs, haliases⟩ := List.mem_filter.mp hs
    exact h s hs (by simpa using haliases)

/-- **Links are read back** if no header among them is taken for an edge; else nothing is. -/
theorem groups_linkLines {c : Config} :
    ((∀ g ∈ c.linkGroups, g.1.head? ≠ some '\t') → groups edge c.linkLines = some c.linkGroups) ∧
      ((groups edge c.linkLines).isSome = true → ∀ g ∈ c.linkGroups, g.1.head? ≠ some '\t') := by
  constructor
  · intro h
    rw [groups_eq_some]
    exact groupsFrom_groups (fun g _ e _ => edge_edgeText e) h
  · intro h g hg htab
    obtain ⟨gs, hgs⟩ := Option.isSome_iff_exists.mp h
    obtain ⟨name, es⟩ := g
    obtain ⟨name', rfl⟩ : ∃ name', name = '\t' :: name' := by
      cases name with
      | nil => cases htab
      | cons a name' =>
          cases htab
          exact ⟨name', rfl⟩
    have hline : '\t' :: '\t' :: (name' ++ [':']) ∈ c.linkLines :=
      List.mem_flatMap.mpr ⟨_, hg, List.mem_cons_self⟩
    have hend := getLast?_of_edge (isSome_of_groupsFrom (groups_eq_some.mp hgs) hline)
    rw [List.getLast?_append_of_ne_nil _ (by decide)] at hend
    cases hend

/-- The edges that are read back are those of the document. -/
theorem edges_linkGroups (c : Config) :
    (SynergyConf.edges c.linkGroups : Multiset (List Char × Side × List Char)) = c.layout.edges := by
  have htexts : SynergyConf.edges c.linkGroups =
      (flatGroups (edgesByFrom c.links)).map fun e => (e.1.toList, e.2.1, e.2.2.toList) := by
    simp only [SynergyConf.edges, linkGroups, flatGroups, List.flatMap_map, List.map_flatMap,
      List.map_map, Function.comp_def]
  rw [htexts, layout, Multiset.coe_eq_coe]
  exact c.flatGroups_edgesByFrom.map _

/-- The sources of the groups are the ends of the links. -/
theorem linkGroups_names (c : Config) :
    (∀ g ∈ c.linkGroups, g.1.head? ≠ some '\t') ↔
      ∀ l ∈ c.links, l.from.toList.head? ≠ some '\t' ∧ l.to.toList.head? ≠ some '\t' := by
  constructor
  · intro h l hl
    have hsource : ∀ e ∈ c.edges, e.1.toList.head? ≠ some '\t' := by
      intro e he
      have hflat := (c.flatGroups_edgesByFrom.mem_iff).mpr he
      obtain ⟨g, hg, heg⟩ := List.mem_flatMap.mp hflat
      obtain ⟨e', -, rfl⟩ := List.mem_map.mp heg
      exact h _ (List.mem_map_of_mem hg)
    have hfrom : (l.from, l.side, l.to) ∈ c.edges :=
      List.mem_flatMap.mpr ⟨l, hl, List.mem_cons_self⟩
    have hto : (l.to, l.side.opposite, l.from) ∈ c.edges :=
      List.mem_flatMap.mpr ⟨l, hl, List.mem_cons_of_mem _ List.mem_cons_self⟩
    exact ⟨hsource _ hfrom, hsource _ hto⟩
  · intro h g hg
    obtain ⟨g', hg', rfl⟩ := List.mem_map.mp hg
    exact (edgesByFrom_forall (P := fun name => name.toList.head? ≠ some '\t') h g' hg').1

/-! ## Whose the aliases are -/

/-- A screen is given as many aliases as one group has, so at most so many screens are given any. -/
theorem countP_deal_le (names : List (List Char)) (gs : List (List Char × List (List Char))) :
    ((deal names gs).countP fun as => !as.isEmpty) ≤ gs.length := by
  induction names generalizing gs with
  | nil => exact Nat.zero_le _
  | cons name names ih =>
      rw [deal]
      split
      · rw [List.countP_cons_of_neg (by simp)]
        exact ih gs
      · next g hg =>
        have herase : (gs.eraseP fun g => g.1 = name).length + 1 = gs.length := by
          rw [List.length_eraseP_of_mem (List.mem_of_find?_eq_some hg) (List.find?_some hg)]
          have hpos := List.length_pos_of_mem (List.mem_of_find?_eq_some hg)
          omega
        have hrest := ih (gs.eraseP fun g => g.1 = name)
        have hcons := List.countP_cons (p := fun as : List (List Char) => !as.isEmpty) (a := g.2)
          (l := deal names (gs.eraseP fun g => g.1 = name))
        split at hcons <;> omega

/-- What a screen is given is nothing or what a group has. -/
theorem mem_deal {names : List (List Char)} {gs : List (List Char × List (List Char))}
    {as : List (List Char)} (h : as ∈ deal names gs) : as = [] ∨ ∃ g ∈ gs, g.2 = as := by
  induction names generalizing gs with
  | nil => cases h
  | cons name names ih =>
      rw [deal] at h
      split at h
      · rcases List.mem_cons.mp h with rfl | h
        · exact Or.inl rfl
        · exact ih h
      · next g hg =>
        rcases List.mem_cons.mp h with rfl | h
        · exact Or.inr ⟨g, List.mem_of_find?_eq_some hg, rfl⟩
        · rcases ih h with rfl | ⟨g', hg', rfl⟩
          · exact Or.inl rfl
          · exact Or.inr ⟨g', List.mem_of_mem_eraseP hg', rfl⟩

/-- A name heads as many groups as it has screens exactly if each of these has aliases. -/
theorem count_aliasGroups_iff (c : Config) (name : String) :
    (c.aliasGroups.map Prod.fst).count name.toList =
        (c.screens.map fun s => s.name.toList).count name.toList ↔
      ∀ t ∈ c.screens, t.name = name → t.aliases ≠ [] := by
  have hgroups : (c.aliasGroups.map Prod.fst).count name.toList =
      (c.screens.filter fun s => s.name = name).countP fun s => !s.aliases.isEmpty := by
    rw [aliasGroups, List.map_map, List.count, List.countP_map, List.countP_filter,
      List.countP_filter]
    refine List.countP_congr fun s _ => ?_
    simp [String.toList_inj, and_comm]
  have hscreens : (c.screens.map fun s => s.name.toList).count name.toList =
      (c.screens.filter fun s => s.name = name).length := by
    rw [List.count, List.countP_map, List.countP_eq_length_filter]
    congr 1
    refine List.filter_congr fun s _ => ?_
    rw [Function.comp_apply, beq_eq_decide, decide_eq_decide, String.toList_inj]
  rw [hgroups, hscreens, List.countP_eq_length]
  simp

/-- **Whose the groups of a document are is clear** exactly if of the screens that share a name either
all have aliases or none has. -/
theorem attributed_iff (c : Config) :
    Attributed (c.screens.map fun s => s.name.toList) c.aliasGroups ↔
      ∀ s ∈ c.screens, ∀ t ∈ c.screens, s.name = t.name → s.aliases ≠ [] → t.aliases ≠ [] := by
  constructor
  · intro h s hs t ht hname haliases
    have hgroup : (s.name.toList, s.aliases.map String.toList) ∈ c.aliasGroups :=
      List.mem_map_of_mem (List.mem_filter.mpr ⟨hs, by simpa using haliases⟩)
    exact (c.count_aliasGroups_iff s.name).mp (h _ hgroup) t ht hname.symm
  · intro h g hg
    obtain ⟨s, hs, rfl⟩ := List.mem_map.mp hg
    obtain ⟨hs, haliases⟩ := List.mem_filter.mp hs
    exact (c.count_aliasGroups_iff s.name).mpr fun t ht hname =>
      h s hs t ht hname.symm (by simpa using haliases)

/-- **Screens are given their own aliases back** if those of one name all have some or all have none. -/
theorem deal_aliases {screens : List Screen}
    (h : ∀ s ∈ screens, ∀ t ∈ screens, s.name = t.name → s.aliases ≠ [] → t.aliases ≠ []) :
    deal (screens.map fun s => s.name.toList)
        ((screens.filter fun s => !s.aliases.isEmpty).map fun s =>
          (s.name.toList, s.aliases.map String.toList)) =
      screens.map fun s => s.aliases.map String.toList := by
  induction screens with
  | nil => rfl
  | cons s screens ih =>
      have hrest := ih fun t ht u hu => h t (List.mem_cons_of_mem s ht) u (List.mem_cons_of_mem s hu)
      by_cases haliases : s.aliases = []
      · -- where there is none, no later screen of the name has aliases either
        have hfind : ((screens.filter fun s => !s.aliases.isEmpty).map fun s =>
            (s.name.toList, s.aliases.map String.toList)).find?
              (fun g => g.1 = s.name.toList) = none := by
          refine List.find?_eq_none.mpr fun g hg => ?_
          obtain ⟨t, ht, rfl⟩ := List.mem_map.mp hg
          obtain ⟨ht, htaliases⟩ := List.mem_filter.mp ht
          intro hname
          have hname : t.name = s.name := by simpa [String.toList_inj] using hname
          exact h t (List.mem_cons_of_mem s ht) s List.mem_cons_self hname
            (by simpa using htaliases) haliases
        rw [List.map_cons, List.filter_cons_of_neg (by simpa using haliases), deal, hfind]
        dsimp only
        rw [hrest, List.map_cons, haliases, List.map_nil]
      · -- the group of this screen is the first with its name
        rw [List.map_cons, List.filter_cons_of_pos (by simpa using haliases), List.map_cons, deal,
          List.find?_cons_of_pos (by simp)]
        dsimp only
        rw [List.eraseP_cons_of_pos (by simp), hrest, List.map_cons]

/-- A layout with the aliases of the document's screens was read from as many groups as there are
screens with aliases, so none of their headers was taken for an alias. -/
theorem aliasGroups_of_deal {c : Config} {gs : List (List Char × List (List Char))}
    (hread : groups some c.aliasLines = some gs)
    (hdeal : deal (c.screens.map fun s => s.name.toList) gs =
      c.screens.map fun s => s.aliases.map String.toList) :
    gs = c.aliasGroups ∧ ∀ g ∈ c.aliasGroups, g.1.head? ≠ some '\t' := by
  have hgiven : c.aliasGroups.length ≤ gs.length := by
    have hle := countP_deal_le (c.screens.map fun s => s.name.toList) gs
    rw [hdeal, List.countP_map, List.countP_eq_length_filter] at hle
    rw [aliasGroups, List.length_map]
    refine le_trans (le_of_eq ?_) hle
    congr 1
    exact List.filter_congr fun s _ => by simp
  have hheaders : c.aliasGroups.countP (fun g => g.1.head? ≠ some '\t') = c.aliasGroups.length :=
    le_antisymm List.countP_le_length (hgiven.trans (length_of_groups_aliasLines hread).le)
  have hnames : ∀ g ∈ c.aliasGroups, g.1.head? ≠ some '\t' := fun g hg =>
    of_decide_eq_true (List.countP_eq_length.mp hheaders g hg)
  exact ⟨Option.some.inj (hread.symm.trans (groups_aliasLines hnames)), hnames⟩

/-! ## Options -/

/-- A line of options is split where it was joined exactly if the key is plain. -/
theorem option_optionLine (kv : List Char × List Char) :
    option (optionLine kv) = some kv ↔ ¬ " = ".toList <:+: kv.1 ++ " =".toList := by
  have hread : option (optionLine kv) = (kv.1 ++ " = ".toList ++ kv.2).dropInfix? " = ".toList := by
    simp [option, optionLine, List.isPrefixOf?]
  rw [hread]
  exact Lines.dropInfix?_eq_iff (by decide)

/-- The line that switches the clipboard off is read back as that setting. -/
theorem option_clipboardOff : option (optionLine clipboardOff) = some clipboardOff := by
  rfl

/-- A list is read if each of its elements is. -/
theorem mapM_eq_some_iff {β γ : Type} {f : β → Option γ} {l : List β} {k : List γ} :
    l.mapM f = some k ↔ l.map f = k.map some := by
  induction l generalizing k with
  | nil =>
      cases k <;> simp
  | cons b l ih =>
      cases k with
      | nil =>
          simp only [List.mapM_cons, List.map_cons, List.map_nil, reduceCtorEq, iff_false]
          cases f b <;> cases l.mapM f <;> simp
      | cons d k =>
          rw [List.mapM_cons, List.map_cons, List.map_cons, List.cons.injEq, ← ih]
          cases f b <;> cases l.mapM f <;> simp

/-- The lines of options are read back as they are exactly if no key holds the delimiter ` = ` or ends
in a part of it. -/
theorem mapM_option_self {kvs : List (List Char × List Char)} :
    (kvs.map optionLine).mapM option = some kvs ↔
      ∀ kv ∈ kvs, ¬ " = ".toList <:+: kv.1 ++ " =".toList := by
  rw [mapM_eq_some_iff, List.map_map, List.map_inj_left]
  exact forall₂_congr fun kv _ => option_optionLine kv

/-- **Options and the clipboard setting are read back** exactly if all keys are plain and the
options do not begin like a clipboard switched off unless it is. -/
theorem optionLines_iff (c : Config) :
    (∃ os, c.optionLines.mapM option = some os ∧
        (if os.head? = some clipboardOff then os.tail else os) = c.optionTexts ∧
        decide (os.head? ≠ some clipboardOff) = c.clipboardSharing) ↔
      (∀ kv ∈ c.optionTexts, ¬ " = ".toList <:+: kv.1 ++ " =".toList) ∧
        (c.clipboardSharing = true → c.optionTexts.head? ≠ some clipboardOff) := by
  cases hclip : c.clipboardSharing with
  | true =>
      -- nothing is added to the options, so they must not begin like the line that would be
      have hwritten : c.optionLines = c.optionTexts.map optionLine := by
        simp [optionLines, writtenOptions, hclip]
      rw [hwritten]
      constructor
      · rintro ⟨os, hos, hoptions, hhead⟩
        have hhead : os.head? ≠ some clipboardOff := of_decide_eq_true hhead
        rw [if_neg hhead] at hoptions
        rw [hoptions] at hos hhead
        exact ⟨mapM_option_self.mp hos, fun _ => hhead⟩
      · rintro ⟨hplain, hhead⟩
        refine ⟨c.optionTexts, mapM_option_self.mpr hplain, if_neg (hhead rfl), ?_⟩
        exact decide_eq_true (hhead rfl)
  | false =>
      -- the line that switches the clipboard off is first, and it is all that is added
      have hwritten : c.optionLines = optionLine clipboardOff :: c.optionTexts.map optionLine := by
        simp [optionLines, writtenOptions, hclip]
      have hread : ∀ os, c.optionLines.mapM option = some os ↔
          ∃ rest, os = clipboardOff :: rest ∧ (c.optionTexts.map optionLine).mapM option = some rest := by
        intro os
        rw [hwritten, List.mapM_cons, option_clipboardOff]
        cases (c.optionTexts.map optionLine).mapM option <;> simp [eq_comm]
      constructor
      · rintro ⟨os, hos, hoptions, -⟩
        obtain ⟨rest, rfl, hrest⟩ := (hread os).mp hos
        rw [if_pos List.head?_cons, List.tail_cons] at hoptions
        rw [hoptions] at hrest
        exact ⟨mapM_option_self.mp hrest, nofun⟩
      · rintro ⟨hplain, -⟩
        refine ⟨clipboardOff :: c.optionTexts,
          (hread _).mpr ⟨c.optionTexts, rfl, mapM_option_self.mpr hplain⟩, ?_, ?_⟩
        · rw [if_pos List.head?_cons, List.tail_cons]
        · exact decide_eq_false (not_not.mpr rfl)

end Config

/-! ## What is read has no line break -/

namespace SynergyConf

/-- No text in this content has a line break; edges are left out. -/
structure Content.Clean (c : Content) : Prop where
  screens : ∀ n ∈ c.screens, '\n' ∉ n
  aliases : ∀ g ∈ c.aliases, '\n' ∉ g.1 ∧ ∀ a ∈ g.2, '\n' ∉ a
  options : ∀ kv ∈ c.options, '\n' ∉ kv.1 ∧ '\n' ∉ kv.2

/-- A name that is read off a line without a line break has none. -/
theorem header_clean {line name : List Char} (h : header line = some name) (hl : '\n' ∉ line) :
    '\n' ∉ name := by
  simp only [header, Option.bind_eq_some_iff, List.isPrefixOf?_eq_some_iff_append_eq,
    List.isSuffixOf?_eq_some_iff_append_eq] at h
  obtain ⟨rest, rfl, rfl⟩ := h
  simp only [List.mem_append, not_or] at hl
  exact hl.2.1

/-- An option that is read off a line without a line break has none. -/
theorem option_clean {line : List Char} {kv : List Char × List Char} (h : option line = some kv)
    (hl : '\n' ∉ line) : '\n' ∉ kv.1 ∧ '\n' ∉ kv.2 := by
  simp only [option, Option.bind_eq_some_iff, List.isPrefixOf?_eq_some_iff_append_eq] at h
  obtain ⟨rest, rfl, hsplit⟩ := h
  obtain ⟨⟨i, hrest, -⟩, -⟩ := List.dropInfix?_eq_some_iff.mp hsplit
  rw [hrest] at hl
  simp only [List.mem_append, not_or] at hl
  exact ⟨hl.2.1.1, hl.2.2⟩

/-- Every name and every alias that is read from groups comes from a line, so none has a line break if
no line has one. -/
theorem groupsFrom_clean {ls : List (List Char)} {pending : List (List Char)}
    {gs : List (List Char × List (List Char))} (h : groupsFrom some ls = some (pending, gs))
    (hl : ∀ l ∈ ls, '\n' ∉ l) :
    (∀ a ∈ pending, '\n' ∉ a) ∧ ∀ g ∈ gs, '\n' ∉ g.1 ∧ ∀ a ∈ g.2, '\n' ∉ a := by
  induction ls generalizing pending gs with
  | nil =>
      cases h
      exact ⟨nofun, nofun⟩
  | cons l ls ih =>
      rw [groupsFrom] at h
      cases hrest : groupsFrom some ls with
      | none =>
          rw [hrest] at h
          cases h
      | some r =>
          obtain ⟨pending', gs'⟩ := r
          obtain ⟨hpending, hgs⟩ := ih hrest fun k hk => hl k (List.mem_cons_of_mem l hk)
          have hline := hl l List.mem_cons_self
          rw [hrest] at h
          simp only [Option.bind_eq_bind, Option.bind_some] at h
          cases htabs : ['\t', '\t'].isPrefixOf? l with
          | some text =>
              simp only [htabs, Option.some.injEq, Prod.mk.injEq] at h
              obtain ⟨rfl, rfl⟩ := h
              -- an alias line is the alias behind two tabs
              have htext := List.isPrefixOf?_eq_some_iff_append_eq.mp htabs
              refine ⟨List.forall_mem_cons.mpr ⟨?_, hpending⟩, hgs⟩
              rw [← htext] at hline
              exact fun hmem => hline (List.mem_append_right _ hmem)
          | none =>
              simp only [htabs, Option.bind_eq_some_iff, Option.some.injEq, Prod.mk.injEq] at h
              obtain ⟨name, hname, rfl, rfl⟩ := h
              exact ⟨nofun, List.forall_mem_cons.mpr
                ⟨⟨header_clean hname hline, hpending⟩, hgs⟩⟩

/-- Everything that a list of lines yields comes from one of them. -/
theorem forall_of_mapM {β : Type} {f : List Char → Option β} {P : β → Prop}
    {ls : List (List Char)} {k : List β} (h : ls.mapM f = some k)
    (hf : ∀ l ∈ ls, ∀ b, f l = some b → P b) : ∀ b ∈ k, P b := by
  intro b hb
  have hmem : some b ∈ ls.map f := by
    rw [Config.mapM_eq_some_iff.mp h]
    exact List.mem_map_of_mem hb
  obtain ⟨l, hl, hlb⟩ := List.mem_map.mp hmem
  exact hf l hl b hlb

/-- Reading a section of lines without breaks adds no text with a break to the content. -/
theorem Content.Clean.readSection {c c' : Content} (hc : c.Clean)
    {sec : List Char × List (List Char)} (hl : ∀ l ∈ sec.2, '\n' ∉ l)
    (h : readSection c sec = some c') : c'.Clean := by
  have hjoin : ∀ {β : Type} {P : β → Prop} {l k : List β}, (∀ x ∈ l, P x) → (∀ x ∈ k, P x) →
      ∀ x ∈ l ++ k, P x := by
    intro β P l k hl hk x hx
    rcases List.mem_append.mp hx with hx | hx
    · exact hl x hx
    · exact hk x hx
  unfold SynergyConf.readSection at h
  split at h
  · obtain ⟨names, hnames, rfl⟩ := Option.map_eq_some_iff.mp h
    exact ⟨hjoin hc.screens (forall_of_mapM hnames fun l hmem n hn => header_clean hn (hl l hmem)),
      hc.aliases, hc.options⟩
  split at h
  · obtain ⟨gs, hgs, rfl⟩ := Option.map_eq_some_iff.mp h
    exact ⟨hc.screens, hjoin hc.aliases (groupsFrom_clean (groups_eq_some.mp hgs) hl).2, hc.options⟩
  split at h
  · obtain ⟨gs, hgs, rfl⟩ := Option.map_eq_some_iff.mp h
    exact ⟨hc.screens, hc.aliases, hc.options⟩
  split at h
  · obtain ⟨kvs, hkvs, rfl⟩ := Option.map_eq_some_iff.mp h
    exact ⟨hc.screens, hc.aliases,
      hjoin hc.options (forall_of_mapM hkvs fun l hmem kv hkv => option_clean hkv (hl l hmem))⟩
  · cases h

/-- The lines of a section are lines of the file. -/
theorem mem_of_sections {ls : List (List Char)} {cur : Option (List Char × List (List Char))}
    {secs : List (List Char × List (List Char))} (h : sections cur ls = some secs) :
    ∀ sec ∈ secs, ∀ l ∈ sec.2, l ∈ ls ∨ ∃ name body, cur = some (name, body) ∧ l ∈ body := by
  -- induction on the lines, with the open section at hand
  induction ls generalizing cur secs with
  | nil =>
      cases cur with
      | none =>
          cases h
          nofun
      | some s => cases h
  | cons line ls ih =>
      cases cur with
      | none =>
          rw [sections] at h
          split at h
          · intro sec hsec l hmem
            rcases ih h sec hsec l hmem with hls | ⟨_, _, hcur, -⟩
            · exact Or.inl (List.mem_cons_of_mem line hls)
            · cases hcur
          · obtain ⟨name, -, hrest⟩ := Option.bind_eq_some_iff.mp h
            intro sec hsec l hmem
            rcases ih hrest sec hsec l hmem with hls | ⟨_, _, hcur, hbody⟩
            · exact Or.inl (List.mem_cons_of_mem line hls)
            · cases hcur
              cases hbody
      | some s =>
          obtain ⟨name, body⟩ := s
          rw [sections] at h
          split at h
          · obtain ⟨rest, hrest, rfl⟩ := Option.map_eq_some_iff.mp h
            intro sec hsec l hmem
            rcases List.mem_cons.mp hsec with rfl | hsec
            -- the section that ends here has its lines from the open one
            · exact Or.inr ⟨name, body, rfl, hmem⟩
            · rcases ih hrest sec hsec l hmem with hls | ⟨_, _, hcur, -⟩
              · exact Or.inl (List.mem_cons_of_mem line hls)
              · cases hcur
          · intro sec hsec l hmem
            rcases ih h sec hsec l hmem with hls | ⟨_, _, hcur, hbody⟩
            -- the line joins the open section
            · exact Or.inl (List.mem_cons_of_mem line hls)
            · cases hcur
              rcases List.mem_append.mp hbody with hbody | hbody
              · exact Or.inr ⟨name, body, rfl, hbody⟩
              · rw [List.mem_singleton.mp hbody]
                exact Or.inl List.mem_cons_self

/-- The parts of a layout are those of the content. -/
theorem Content.layout_eq_some {c : Content} {L : Layout} (h : c.layout = some L) :
    Attributed c.screens c.aliases ∧ L.screens = c.screens ∧ L.aliases = deal c.screens c.aliases ∧
      L.options = (if c.options.head? = some clipboardOff then c.options.tail else c.options) ∧
      L.clipboardSharing = decide (c.options.head? ≠ some clipboardOff) := by
  rw [Content.layout] at h
  split at h
  · next hattributed =>
    obtain rfl := Option.some.inj h
    exact ⟨hattributed, rfl, rfl, rfl, rfl⟩
  · cases h

/-- **What is read has no line break**: whatever a file is read as has texts without line breaks, as
it was divided into lines first. -/
theorem exists_clean_of_parse {text : List Char} {L : Layout} (h : parse text = some L) :
    ∃ c : Content, c.Clean ∧ c.layout = some L := by
  obtain ⟨c, hc, hlayout⟩ := Option.bind_eq_some_iff.mp h
  obtain ⟨secs, hsecs, hfold⟩ := Option.bind_eq_some_iff.mp hc
  have hlines : ∀ sec ∈ secs, ∀ l ∈ sec.2, '\n' ∉ l := by
    intro sec hsec l hmem
    rcases mem_of_sections hsecs sec hsec l hmem with hl | ⟨_, _, hcur, -⟩
    · exact Lines.not_mem_of_mem_lines hl
    · cases hcur
  have hfoldClean : ∀ (secs : List (List Char × List (List Char))) (c c' : Content), c.Clean →
      (∀ sec ∈ secs, ∀ l ∈ sec.2, '\n' ∉ l) → secs.foldlM readSection c = some c' → c'.Clean := by
    intro secs
    induction secs with
    | nil =>
        intro c c' hclean _ hread
        cases hread
        exact hclean
    | cons sec secs ih =>
        intro c c' hclean hl hread
        rw [List.foldlM_cons] at hread
        obtain ⟨c'', hsec, hrest⟩ := Option.bind_eq_some_iff.mp hread
        exact ih c'' c' (hclean.readSection (hl sec List.mem_cons_self) hsec)
          (fun s hs => hl s (List.mem_cons_of_mem sec hs)) hrest
  have hempty : Content.Clean ⟨[], [], [], []⟩ := ⟨nofun, nofun, nofun⟩
  exact ⟨c, hfoldClean secs _ c hempty hlines hfold, hlayout⟩

end SynergyConf

/-! ## The encoding is faithful -/

namespace Config

open SynergyConf

/-- The ends of the links of a valid document are screens. -/
theorem Unbroken.ends {c : Config} (h : c.Unbroken) (hv : c.Valid) :
    ∀ l ∈ c.links, '\n' ∉ l.from.toList ∧ '\n' ∉ l.to.toList := by
  have hscreen : ∀ name, hasScreen c.screens name = true → '\n' ∉ name.toList := by
    intro name hname
    obtain ⟨s, hs, heq⟩ := List.any_eq_true.mp hname
    rw [← beq_iff_eq.mp heq]
    exact h.names s hs
  intro l hl
  obtain ⟨hfrom, hto, -⟩ := (valid_iff.mp hv).2.1 l hl
  exact ⟨hscreen _ hfrom, hscreen _ hto⟩

/-- A group's lines have no line break if its name and its entries have none. -/
theorem not_mem_groupLines {name : List Char} {entries : List (List Char)} (hname : '\n' ∉ name)
    (hentries : ∀ e ∈ entries, '\n' ∉ e) : ∀ l ∈ groupLines name entries, '\n' ∉ l := by
  intro l hl
  rcases List.mem_cons.mp hl with rfl | hl
  · simp [hname]
  · obtain ⟨e, he, rfl⟩ := List.mem_map.mp hl
    simp [hentries e he]

/-- A section's lines have no line break if its name and its body have none. -/
theorem not_mem_sectionLines (name : String) {body : List (List Char)} (hname : '\n' ∉ name.toList)
    (hbody : ∀ l ∈ body, '\n' ∉ l) : ∀ l ∈ sectionLines name body, '\n' ∉ l := by
  intro l hl
  simp only [sectionLines, List.cons_append, List.mem_cons, List.mem_append, List.not_mem_nil,
    or_false] at hl
  rcases hl with rfl | hl | rfl
  · simp [hname]
  · exact hbody l hl
  · decide

/-- A blank line at the end brings no line break in. -/
theorem not_mem_blank {ls : List (List Char)} (hls : ∀ l ∈ ls, '\n' ∉ l) :
    ∀ l ∈ ls ++ [[]], '\n' ∉ l := by
  intro l hl
  rcases List.mem_append.mp hl with hl | hl
  · exact hls l hl
  · rw [List.mem_singleton.mp hl]
    exact List.not_mem_nil

/-- The lines of the screens have no line break if nothing in the document has. -/
theorem Unbroken.screenLines {c : Config} (h : c.Unbroken) : ∀ l ∈ c.screenLines, '\n' ∉ l := by
  intro l hl
  obtain ⟨s, hs, rfl⟩ := List.mem_map.mp hl
  simp [h.names s hs]

/-- The lines of the aliases have no line break if nothing in the document has. -/
theorem Unbroken.aliasLines {c : Config} (h : c.Unbroken) : ∀ l ∈ c.aliasLines, '\n' ∉ l := by
  intro l hl
  obtain ⟨g, hg, hlg⟩ := List.mem_flatMap.mp hl
  obtain ⟨s, hs, rfl⟩ := List.mem_map.mp hg
  have hs := List.mem_of_mem_filter hs
  refine not_mem_groupLines (h.names s hs) ?_ l hlg
  intro e he
  obtain ⟨a, ha, rfl⟩ := List.mem_map.mp he
  exact h.aliases s hs a ha

/-- The lines of the links have no line break if nothing in the document has; the ends of a link are
screens. -/
theorem Unbroken.linkLines {c : Config} (h : c.Unbroken) (hv : c.Valid) :
    ∀ l ∈ c.linkLines, '\n' ∉ l := by
  intro l hl
  obtain ⟨g, hg, hlg⟩ := List.mem_flatMap.mp hl
  obtain ⟨g', hg', rfl⟩ := List.mem_map.mp hg
  obtain ⟨hname, htargets⟩ :=
    edgesByFrom_forall (P := fun name => '\n' ∉ name.toList) (h.ends hv) g' hg'
  refine not_mem_groupLines hname ?_ l hlg
  intro e he
  simp only [List.mem_map] at he
  obtain ⟨_, ⟨e', he', rfl⟩, rfl⟩ := he
  have hside : '\n' ∉ e'.1.asSynergy.toList := by
    cases e'.1 <;> decide
  simp [edgeText, hside, htargets e' he']

/-- The lines of the options have no line break if nothing in the document has. -/
theorem Unbroken.optionLines {c : Config} (h : c.Unbroken) : ∀ l ∈ c.optionLines, '\n' ∉ l := by
  have hwritten : ∀ kv ∈ c.writtenOptions, '\n' ∉ kv.1 ∧ '\n' ∉ kv.2 := by
    intro kv hkv
    rcases List.mem_append.mp hkv with hkv | hkv
    · split at hkv
      · cases hkv
      · rw [List.mem_singleton.mp hkv]
        decide
    · obtain ⟨kv', hkv', rfl⟩ := List.mem_map.mp hkv
      exact h.options kv' hkv'
  intro l hl
  obtain ⟨kv, hkv, rfl⟩ := List.mem_map.mp hl
  simp [optionLine, hwritten kv hkv]

/-- Without line breaks in its texts, the file has the lines it was made of. -/
theorem lines_generateSynergyConf {c : Config} (h : c.Unbroken) (hv : c.Valid) :
    Lines.lines '\n' c.generateSynergyConf.toList = c.confLines := by
  rw [toList_generateSynergyConf]
  refine Lines.lines_unlines ?_
  intro l hl
  simp only [confLines, List.mem_append] at hl
  rcases hl with (((hl | hl) | hl) | hl) | hl
  · simp only [List.mem_cons, List.not_mem_nil, or_false] at hl
    rcases hl with rfl | rfl <;> decide
  · exact not_mem_blank (not_mem_sectionLines "screens" (by decide) h.screenLines) l
      (List.mem_append.mpr hl)
  · split at hl
    · cases hl
    · exact not_mem_blank (not_mem_sectionLines "aliases" (by decide) h.aliasLines) l hl
  · split at hl
    · cases hl
    · exact not_mem_blank (not_mem_sectionLines "links" (by decide) (h.linkLines hv)) l hl
  · split at hl
    · cases hl
    · exact not_mem_sectionLines "options" (by decide) h.optionLines l hl

/-- A document whose file means its layout has no line break in its texts. -/
theorem unbroken_of_parse {c : Config} (h : parse c.generateSynergyConf.toList = some c.layout) :
    c.Unbroken := by
  obtain ⟨k, hclean, hlayout⟩ := exists_clean_of_parse h
  obtain ⟨-, hscreens, haliases, hoptions, -⟩ := Content.layout_eq_some hlayout
  constructor
  · intro s hs
    refine hclean.screens _ ?_
    rw [← hscreens]
    exact List.mem_map_of_mem hs
  · intro s hs a ha
    have hgiven : s.aliases.map String.toList ∈ deal k.screens k.aliases := by
      rw [← haliases]
      exact List.mem_map_of_mem hs
    rcases mem_deal hgiven with hnone | ⟨g, hg, hgroup⟩
    · rw [List.map_eq_nil_iff.mp hnone] at ha
      cases ha
    · refine (hclean.aliases g hg).2 _ ?_
      rw [hgroup]
      exact List.mem_map_of_mem ha
  · intro kv hkv
    refine hclean.options (kv.1.toList, kv.2.toList) ?_
    have hmem : (kv.1.toList, kv.2.toList) ∈ c.layout.options := List.mem_map_of_mem hkv
    rw [hoptions] at hmem
    split at hmem
    · exact List.mem_of_mem_tail hmem
    · exact hmem

/-- Without line breaks, the layout is read back exactly if each section is. -/
theorem parse_generate_iff {c : Config} (h : c.Unbroken) (hv : c.Valid) :
    parse c.generateSynergyConf.toList = some c.layout ↔
      (∀ s ∈ c.screens, ∀ t ∈ c.screens, s.name = t.name → s.aliases ≠ [] → t.aliases ≠ []) ∧
        (∀ s ∈ c.screens, s.aliases ≠ [] → s.name.toList.head? ≠ some '\t') ∧
        (∀ l ∈ c.links, l.from.toList.head? ≠ some '\t' ∧ l.to.toList.head? ≠ some '\t') ∧
        (∀ kv ∈ c.optionTexts, ¬ " = ".toList <:+: kv.1 ++ " =".toList) ∧
        (c.clipboardSharing = true → c.optionTexts.head? ≠ some clipboardOff) := by
  rw [parse_of_lines (lines_generateSynergyConf h hv), ← aliasGroups_names, ← linkGroups_names,
    ← optionLines_iff]
  constructor
  · intro hparse
    simp only [Option.bind_eq_some_iff] at hparse
    obtain ⟨as, has, ls, hls, os, hos, hlayout⟩ := hparse
    obtain ⟨hattributed, -, haliases, hoptions, hclip⟩ := Content.layout_eq_some hlayout
    obtain ⟨rfl, hnames⟩ := aliasGroups_of_deal has haliases.symm
    exact ⟨c.attributed_iff.mp hattributed, hnames, groups_linkLines.2 (by rw [hls]; rfl), os, hos,
      hoptions.symm, hclip.symm⟩
  · rintro ⟨hnamesakes, haliased, hlinked, os, hos, hoptions, hclip⟩
    rw [groups_aliasLines haliased, groups_linkLines.1 hlinked, hos, Option.bind_some,
      Option.bind_some, Option.bind_some, Content.layout, if_pos (c.attributed_iff.mpr hnamesakes)]
    refine congrArg some ?_
    dsimp only
    rw [hoptions, hclip, edges_linkGroups, aliasGroups, deal_aliases hnamesakes]
    rfl

/-- The conditions on the options, said of the texts. -/
theorem optionTexts_iff (c : Config) :
    ((∀ kv ∈ c.optionTexts, ¬ " = ".toList <:+: kv.1 ++ " =".toList) ↔
      ∀ kv ∈ c.options.entries, ¬ " = ".toList <:+: kv.1.toList ++ " =".toList) ∧
    (c.optionTexts.head? ≠ some clipboardOff ↔
      c.options.entries.head? ≠ some ("clipboardSharing", "false")) := by
  refine ⟨List.forall_mem_map, ?_⟩
  rw [optionTexts, List.head?_map]
  cases c.options.entries with
  | nil => simp
  | cons kv kvs =>
      have hpair : (kv.1.toList, kv.2.toList) = clipboardOff ↔
          kv = ("clipboardSharing", "false") := by
        constructor
        · intro h
          have hkey : kv.1.toList = "clipboardSharing".toList := congrArg Prod.fst h
          have hvalue : kv.2.toList = "false".toList := congrArg Prod.snd h
          exact Prod.ext (String.toList_inj.mp hkey) (String.toList_inj.mp hvalue)
        · rintro rfl
          rfl
      rw [List.head?_cons, Option.map_some, Ne, Ne, Option.some_inj, Option.some_inj, hpair]

/-- The file of an encodable, accepted document is read back as the layout that the document means. -/
theorem Encodable.parse {c : Config} (h : c.Encodable) (hv : c.Valid) :
    SynergyConf.parse c.generateSynergyConf.toList = some c.layout := by
  obtain ⟨hplain, hhead⟩ := c.optionTexts_iff
  exact (parse_generate_iff h.toUnbroken hv).mpr
    ⟨h.namesakes, h.aliased, h.linked, hplain.mpr h.plain, fun hc => hhead.mpr (h.clipboard hc)⟩

/-- **Different layouts, different files**: encodable documents with the same file have the same
screens, aliases, edges, options and clipboard setting. -/
theorem Encodable.layout_eq {c d : Config} (hc : c.Encodable) (hcv : c.Valid) (hd : d.Encodable)
    (hdv : d.Valid) (h : c.generateSynergyConf = d.generateSynergyConf) : c.layout = d.layout := by
  have hread := hc.parse hcv
  rw [h, hd.parse hdv] at hread
  exact (Option.some.inj hread).symm

/-- **The generated file is a faithful encoding** of a valid document exactly if the document is
encodable. -/
theorem synergyConf_faithful_iff {c : Config} (hv : c.Valid) :
    SynergyConf.parse c.generateSynergyConf.toList = some c.layout ↔ c.Encodable := by
  constructor
  · intro h
    have hunbroken := unbroken_of_parse h
    obtain ⟨hnamesakes, haliased, hlinked, hkeys, hclip⟩ := (parse_generate_iff hunbroken hv).mp h
    obtain ⟨hplain, hhead⟩ := c.optionTexts_iff
    exact ⟨hunbroken, hnamesakes, haliased, hlinked, hplain.mp hkeys, fun hc => hhead.mp (hclip hc)⟩
  · exact fun h => h.parse hv

/-- The default document has nothing in it that needs care, and its file is read back as its
layout. -/
theorem synergyConf_faithful_default :
    SynergyConf.parse Config.default.generateSynergyConf.toList = some Config.default.layout := by
  refine (synergyConf_faithful_iff valid_default).mpr ⟨⟨?_, ?_, nofun⟩, ?_, ?_, nofun, nofun, nofun⟩
  · intro s hs
    rw [List.mem_singleton.mp hs]
    decide
  · intro s hs a ha
    rw [List.mem_singleton.mp hs] at ha
    cases ha
  · intro s hs t _ _ haliases
    rw [List.mem_singleton.mp hs] at haliases
    exact absurd rfl haliases
  · intro s hs haliases
    rw [List.mem_singleton.mp hs] at haliases
    exact absurd rfl haliases

/-- A document whose one option has a second line in its value. -/
def twoLineOption : Config :=
  { Config.default with
    options := ⟨[("heartbeat", "5000\n\trelativeMouseMoves = true")], List.pairwise_singleton _ _⟩ }

/-- The second line of the value is an option of its own to whoever reads the file. -/
theorem option_text_injects :
    twoLineOption.Valid ∧
      SynergyConf.parse twoLineOption.generateSynergyConf.toList ≠ some twoLineOption.layout := by
  refine ⟨rfl, fun h => ?_⟩
  have hvalue := ((unbroken_of_parse h).options _ List.mem_cons_self).2
  exact hvalue (by decide)

end Config

end Synbad
