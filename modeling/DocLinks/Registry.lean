import DocLinks.Doclet.Basic
import DocLinks.Filename
import DocLinks.Percent

/-!
# The registry of links

The registry maps every documented long name to the page, and the fragment on it, where the
symbol is documented.  An entry is never replaced: the first registration of a name wins.
Aliases are entries that own no page.

**Placement.**  Containers and the values of modules have a page of their own.  Everything
else lives on the page of its parent, or on the global page, under a fragment that is unique
there.  Pages are allocated and registered when they are first needed.

**One list.**  An entry is a name with its link and with whether it is an alias, and the
entries stand in the order of registration.  Links, their order and the set of aliases are
three views of this list, `resolve?`, `names` and `isAlias`.  That they speak of the same
names is not proved anywhere: it holds by construction, as every operation changes the three
together.

**Results.**  `resolve?_register` and `entries_register`: what a registration changes.
-/

namespace DocLinks

/-- A registered name with its link.  An alias only stands for another name. -/
structure Entry where
  name : String
  url : String
  isAlias : Bool
  deriving DecidableEq, Repr, Inhabited

/-- The page of a tutorial. -/
structure TutorialPage where
  url : String
  title : String
  deriving DecidableEq, Repr, Inhabited

/-- All links that are known: the entries in the order of their registration, the tutorials
that have a page, the fragments that belong to a long name, and the filenames and fragments
in use. -/
structure Registry where
  entries : List Entry := []
  tutorials : List (String × TutorialPage) := []
  fragments : List (String × String) := []
  files : Filename.Allocator := .empty
  deriving Inhabited

namespace Registry

/-- The name of the page for symbols without a parent. -/
def globalName : String := "global"

/-- The name of the home page; it is no long name. -/
def indexName : String := "index"

/-- The file of the home page. -/
def indexUrl : String := "index.html"

/-- The entry of a name. -/
def find? (r : Registry) (name : String) : Option Entry :=
  r.entries.find? (·.name == name)

/-- Where a name is documented. -/
def resolve? (r : Registry) (name : String) : Option String :=
  (r.find? name).map (·.url)

/-- Whether a name is registered. -/
def contains (r : Registry) (name : String) : Bool :=
  r.entries.any (·.name == name)

/-- Whether a name is registered as an alias. -/
def isAlias (r : Registry) (name : String) : Bool :=
  r.entries.any fun e => e.name == name && e.isAlias

/-- All registered names. -/
def names (r : Registry) : List String :=
  r.entries.map (·.name)

/-- Adds an entry, unless its name is registered. -/
def add (r : Registry) (e : Entry) : Registry :=
  if r.contains e.name then r else { r with entries := r.entries ++ [e] }

/-- Registers a long name, unless it is registered. -/
def register (r : Registry) (name url : String) : Registry :=
  r.add ⟨name, url, false⟩

/-- Registers an alias, unless the name is registered. -/
def registerAlias (r : Registry) (name url : String) : Registry :=
  r.add ⟨name, url, true⟩

/-- The registry in which only the home page and the global page are known; the latter is
registered. -/
def new : Registry :=
  let (_, files) := Filename.Allocator.empty.claimFile indexName
  let (url, files) := files.claimFile globalName
  { entries := [⟨globalName, url, false⟩], files := files }

/-- The file of the global page. -/
def globalUrl (r : Registry) : String :=
  (r.resolve? globalName).getD ""

/-- Claims a new filename, for a page that has no long name. -/
def claimFile (r : Registry) (name : String) : String × Registry :=
  let (url, files) := r.files.claimFile name
  (url, { r with files := files })

/-- The page of a tutorial. -/
def tutorial? (r : Registry) (name : String) : Option TutorialPage :=
  r.tutorials.lookup name

/-- Gives a tutorial its page, once for each name. -/
def addTutorial (r : Registry) (name title : String) : String × Registry :=
  match r.tutorial? name with
  | some page => (page.url, r)
  | none =>
      let (url, r) := r.claimFile ("tutorial-" ++ name)
      (url, { r with tutorials := r.tutorials ++ [(name, ⟨url, title⟩)] })

/-- A link without its fragment. -/
def pageOf (url : String) : String :=
  String.ofList (Text.beforeFirst (· == '#') url.toList)

/-- The page of a long name; if it has none, one is allocated and registered. -/
def pageFor (r : Registry) (name : String) : String × Registry :=
  match r.resolve? name with
  | some url => (pageOf url, r)
  | none =>
      let (url, r) := r.claimFile name
      (url, r.register name url)

/-- The fragment that a doclet asks for: its name with its variation, marked with its kind,
without the punctuation of its scope in front. -/
def fragmentWish (d : Doclet) : String :=
  let wish := d.kind.fragmentLead ++ d.name.getD "" ++ d.variation.getD ""
  let punctuation := (d.scope.map Scope.punctuation).getD ""
  String.ofList ((Text.after? punctuation.toList wish.toList).getD wish.toList)

/-- The fragment of a doclet on a page; a long name gets it only once.  A doclet that asks
for nothing has none. -/
def fragmentFor (r : Registry) (file : String) (d : Doclet) : String × Registry :=
  match r.fragments.lookup d.longname with
  | some fragment => (fragment, r)
  | none =>
      let wish := fragmentWish d
      if wish == "" then ("", r)
      else
        let (fragment, files) := r.files.claimAnchor file wish
        (fragment,
          { r with files := files, fragments := r.fragments ++ [(d.longname, fragment)] })

/-- The kinds that mark the long names of containers. -/
def containerMarks : List String :=
  ["class", "module", "external", "namespace", "mixin", "interface"]

/-- Whether a long name is marked as that of a container: the first word of it has such a
kind before its last colon. -/
def hasContainerMark (longname : String) : Bool :=
  let word := (Text.trimStart longname.toList).takeWhile fun c => !Text.isBlank c
  match Text.cutAtLast (· == ':') word with
  | some (mark, _) => containerMarks.contains (String.ofList mark)
  | none => false

/-- Where a doclet is documented: the long name that owns the page, and whether the doclet is
only a part of that page. -/
structure Placement where
  owner : String
  isPart : Bool
  deriving DecidableEq, Repr

/-- Where a doclet is documented.  A symbol that is called like its whole long name is no
part of a page, unless it is global. -/
def placement (d : Doclet) : Placement :=
  let namedDifferently := d.name != some d.longname
  if d.kind.isContainer || d.isModuleExports then ⟨d.longname, false⟩
  else if hasContainerMark d.longname then ⟨d.memberof.getD d.longname, namedDifferently⟩
  else ⟨d.memberof.getD globalName, namedDifferently || d.scope == some .global⟩

/-- A link to a page or, with a fragment that is not empty, to a part of it. -/
def urlOf (file fragment : String) : String :=
  let url := if fragment == "" then file else file ++ "#" ++ fragment
  String.ofList (Percent.encode url.toList)

/-- The link of a doclet.  The page, and the fragment on it, are allocated if need be, but
the link is not registered. -/
def createLink (r : Registry) (d : Doclet) : String × Registry :=
  let p := placement d
  let (file, r) := r.pageFor p.owner
  let (fragment, r) := if p.isPart then r.fragmentFor file d else ("", r)
  (urlOf file fragment, r)

theorem entries_register (r : Registry) (name url : String) :
    (r.register name url).entries =
      if r.contains name then r.entries else r.entries ++ [⟨name, url, false⟩] := by
  unfold register add
  split <;> rfl

theorem resolve?_register (r : Registry) (name url other : String) :
    (r.register name url).resolve? other =
      if r.contains name = false ∧ other = name then some url else r.resolve? other := by
  unfold resolve? find?
  rw [entries_register]
  by_cases h : r.contains name = true
  · simp [h]
  · have hf : r.entries.find? (·.name == name) = none := by
      simpa [contains] using h
    simp only [h]
    by_cases ho : other = name
    · subst ho
      simp [hf]
    · simp [ho, Ne.symm ho]

end Registry

end DocLinks
