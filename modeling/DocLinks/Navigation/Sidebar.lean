import DocLinks.Members
import DocLinks.Reference
import DocLinks.Text.Word

/-!
# The sidebar

The navigation of a documentation: a link to the home page, and sections with an entry for
every symbol of a category.

**Order.**  Sections come in a fixed order, and only those with entries.  Modules,
namespaces, classes, interfaces, events and mixins share their long names: what is listed in
one of them is not listed again.  Externals and tutorials are kept apart.

**Positions.**  All rows are numbered in the order in which they are shown; an entry comes
after the heading of its section.

**Results.**  `entries_ne_nil`: no section is empty.
-/

namespace DocLinks

/-- What a row of the sidebar shows: an anchor, whose content is inserted as it is, markup
without an anchor, or the heading of a section. -/
inductive Label where
  | link (href html : String)
  | markup (html : String)
  | heading (title : String)
  deriving DecidableEq, Repr, Inhabited

namespace Label

/-- Where a row leads. -/
def href? : Label → Option String
  | link href _ => some href
  | _ => none

/-- The label of a reference. -/
def ofReference : Reference → Label
  | .link href text => link href text
  | ref => markup ref.html

end Label

/-- A section of the sidebar. -/
structure Section where
  title : String
  entries : List Label
  deriving DecidableEq, Repr, Inhabited

/-- A row of the sidebar and the position of the heading above it; links of the top level and
headings have none. -/
structure Row where
  label : Label
  parent : Option Nat
  deriving DecidableEq, Repr, Inhabited

/-- The navigation of a documentation. -/
structure Sidebar where
  sections : List Section
  deriving DecidableEq, Repr, Inhabited

/-- A symbol that is listed in the sidebar.  Anonymous entries have no long name. -/
structure Listed where
  longname : Option String
  display : String
  deriving DecidableEq, Repr, Inhabited

namespace Listed

/-- The marks of kinds that are not shown. -/
def hiddenMarks : List (List Char) :=
  ["module:".toList, "event:".toList]

/-- The pattern of marks of kinds; they start at a boundary of words. -/
def markPattern : Text.Pattern Unit := fun before s =>
  if Text.atBoundary Text.isWord before.head? s.head? then
    (hiddenMarks.find? (·.isPrefixOf s)).map fun mark => ⟨(), mark.length - 1⟩
  else none

/-- A name without the marks of kinds in it. -/
def dropMarks (name : String) : String :=
  String.ofList ((markPattern.cut name.toList).flatMap fun
    | .gap s => s
    | .hit _ _ => [])

/-- What is shown for a symbol with a long name. -/
def displayOf (showsLongnames stripsQuotes : Bool) (longname : String)
    (m : Member) : String :=
  let display := dropMarks (if showsLongnames then longname else m.name)
  if stripsQuotes then DocLinks.stripQuotes display else display

/-- The symbols of a group that are listed, given the long names that have been listed
before. Anonymous entries are always listed, under their plain names. -/
def ofMembers (showsLongnames stripsQuotes : Bool) (seen : List String) :
    List Member → List Listed × List String
  | [] => ([], seen)
  | m :: ms =>
      match m.longname with
      | none =>
          let (rest, seen) := ofMembers showsLongnames stripsQuotes seen ms
          (⟨none, m.name⟩ :: rest, seen)
      | some longname =>
          if seen.contains longname then ofMembers showsLongnames stripsQuotes seen ms
          else
            let (rest, seen) := ofMembers showsLongnames stripsQuotes (longname :: seen) ms
            (⟨some longname, displayOf showsLongnames stripsQuotes longname m⟩ :: rest, seen)

/-- The reference to a listed symbol. -/
def reference? (r : Registry) (l : Listed) : Option Reference :=
  l.longname.map fun longname => .ofTarget r longname (some l.display)

/-- What is shown for a listed symbol. -/
def label (r : Registry) (l : Listed) : Label :=
  match l.reference? r with
  | some ref => .ofReference ref
  | none => .markup l.display

/-- What is to be said about a listed symbol. -/
def warnings (r : Registry) (l : Listed) : List Warning :=
  match l.reference? r with
  | some ref => ref.warnings "navigation"
  | none => []

end Listed

namespace Sidebar

/-- A group of symbols with its heading, and whether it shares its long names with others. -/
structure Group where
  title : String
  members : List Member
  isShared : Bool

/-- The groups of symbols in the order of their sections. -/
def groups (m : Members) : List Group :=
  [⟨"Modules", m.modules, true⟩, ⟨"Externals", m.externals, false⟩,
   ⟨"Namespaces", m.namespaces, true⟩, ⟨"Classes", m.classes, true⟩,
   ⟨"Interfaces", m.interfaces, true⟩, ⟨"Events", m.events, true⟩,
   ⟨"Mixins", m.mixins, true⟩]

/-- The symbols that are listed, by section, given the long names that have been listed in
the sections that share them.  Only groups of their own have quotes taken off. -/
def listAll (showsLongnames : Bool) (seen : List String) :
    List Group → List (String × List Listed)
  | [] => []
  | g :: gs =>
      if g.isShared then
        let (listed, seen) := Listed.ofMembers showsLongnames false seen g.members
        (g.title, listed) :: listAll showsLongnames seen gs
      else
        let (listed, _) := Listed.ofMembers showsLongnames true [] g.members
        (g.title, listed) :: listAll showsLongnames seen gs

/-- The symbols that are listed, by section. -/
def listed (showsLongnames : Bool) (m : Members) : List (String × List Listed) :=
  listAll showsLongnames [] (groups m)

/-- The tutorials that are listed: the first one of each name. -/
def listedTutorials (seen : List String) : List Tutorial → List Tutorial
  | [] => []
  | t :: ts =>
      if seen.contains t.name then listedTutorials seen ts
      else t :: listedTutorials (t.name :: seen) ts

/-- What is shown for a tutorial. -/
def tutorialLabel (r : Registry) (t : Tutorial) : Label :=
  match r.tutorial? t.name with
  | some page => .link page.url page.title
  | none => .markup ("<em class=\"disabled\">Tutorial: " ++ t.name ++ "</em>")

/-- All sections, empty ones included. -/
def allSections (showsLongnames : Bool) (m : Members) (r : Registry) : List Section :=
  (listed showsLongnames m).map (fun (title, ls) => ⟨title, ls.map (Listed.label r)⟩) ++
    [⟨"Tutorials", (listedTutorials [] m.tutorials).map (tutorialLabel r)⟩]

/-- The sidebar of a documentation. -/
def build (showsLongnames : Bool) (m : Members) (r : Registry) : Sidebar :=
  ⟨(allSections showsLongnames m r).filter fun s => !s.entries.isEmpty⟩

/-- What is to be said about the symbols of a sidebar. -/
def warnings (showsLongnames : Bool) (m : Members) (r : Registry) : List Warning :=
  (listed showsLongnames m).flatMap fun (_, ls) => ls.flatMap (Listed.warnings r)

theorem entries_ne_nil {showsLongnames : Bool} {m : Members} {r : Registry} {s : Section}
    (h : s ∈ (build showsLongnames m r).sections) : s.entries ≠ [] := by
  have h' := (List.mem_filter.1 h).2
  simpa using h'

/-- The link to the home page. -/
def home : Label :=
  .link Registry.indexUrl "Home"

/-- The rows of sections, the first of which is at the given position. -/
def sectionRows (start : Nat) : List Section → List Row
  | [] => []
  | s :: rest =>
      ⟨.heading s.title, none⟩ :: s.entries.map (⟨·, some start⟩) ++
        sectionRows (start + 1 + s.entries.length) rest

/-- All rows in the order in which they are shown. -/
def rows (t : Sidebar) : List Row :=
  ⟨home, none⟩ :: sectionRows 1 t.sections

/-- The positions of all rows. -/
def positions (t : Sidebar) : List Nat :=
  List.range t.rows.length

/-- What is shown at a position. -/
def label? (t : Sidebar) (i : Nat) : Option Label :=
  t.rows[i]?.map (·.label)

/-- The position of the heading above a row. -/
def parent? (t : Sidebar) (i : Nat) : Option Nat :=
  t.rows[i]?.bind (·.parent)

/-- The positions of the rows below a heading. -/
def children (t : Sidebar) (i : Nat) : List Nat :=
  t.positions.filter fun j => t.parent? j == some i

/-- The positions of the rows of the top level. -/
def roots (t : Sidebar) : List Nat :=
  t.positions.filter fun i => (t.parent? i).isNone

/-- The headings of all sections. -/
def titles (t : Sidebar) : List String :=
  t.sections.map (·.title)

/-- The positions of all rows that lead to a page. -/
def positionsOf (t : Sidebar) (href : String) : List Nat :=
  t.positions.filter fun i => ((t.label? i).bind Label.href?) == some href

end Sidebar

end DocLinks
