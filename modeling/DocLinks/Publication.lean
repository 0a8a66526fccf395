import DocLinks.Expansion.TextField
import DocLinks.Publication.Ancestors
import DocLinks.Publication.Caption
import DocLinks.Publication.Page
import DocLinks.Publication.SourcePath
import DocLinks.Shortname
import DocLinks.Signature

/-!
# Publishing a documentation

A set of doclets is turned into a documentation in which every reference is resolved.

**Order.**  Configured links come first, so that nothing replaces them.  Then every doclet is
given its link, before any text is expanded and any reference is looked up; short names are
derived from the complete registry.  Tutorials and source files get their pages last.

**Results.**  `run` fails only with the name of a doclet that has no link.
-/

namespace DocLinks

/-- Why a documentation cannot be published: the doclets cannot be read, or one of them has
no link although all have been registered. -/
inductive PublishError where
  | input (p : Json.Problem)
  | missingUrl (longname : String)
  deriving DecidableEq, Repr

namespace PublishError

/-- What is said about an error in the course of publishing. -/
def message : PublishError → String
  | input _ => "Invalid doclet input"
  | missingUrl longname => "No URL registered for " ++ longname

end PublishError

/-- What publishing depends on besides the doclets: how tickets are linked, the names that
are documented elsewhere with their links, in their order, and where the search for addresses
in a text is given up. -/
structure PublishSettings where
  ticketBaseUrl : String := Expander.defaultBaseUrl
  ticketMark : String := Expander.defaultMark
  linkMap : List (String × String) := []
  halt : Text.Halt := Text.Halt.never
  deriving Inhabited

/-- A published documentation. -/
structure Publication where
  doclets : List Doclet
  registry : Registry
  aliases : Shortname.Report
  members : Members
  pages : List Page
  sourceFiles : List SourceFile
  warnings : List Warning

namespace Publication

/-- Whether a reference is only a fragment of the page at hand. -/
def isHashLink (see : String) : Bool :=
  match see.toList with
  | '#' :: _ :: _ => true
  | _ => false

/-- The anchor to a fragment of the page of the given link. -/
def hashLink (url hash : String) : String :=
  "<a href=\"" ++ Registry.pageOf url ++ hash ++ "\">" ++ hash ++ "</a>"

/-- Moves captions into their fields and clears the attributes for display. -/
def tidy (d : Doclet) : Doclet :=
  { d with attribs := some "", examples := d.examples.map Caption.split }

/-- Turns references to fragments into anchors. -/
def linkFragments (url : String) (d : Doclet) : Doclet :=
  { d with see := d.see.map fun see => if isHashLink see then hashLink url see else see }

/-- Prepares a doclet; its link is created if a reference to a fragment needs it. -/
def prepare (r : Registry) (d : Doclet) : Doclet × Registry :=
  let d := tidy d
  if d.see.any isHashLink then
    let (url, r) := r.createLink d
    (linkFragments url d, r)
  else (d, r)

/-- Prepares doclets one after the other. -/
def prepareAll : Registry → List Doclet → List Doclet × Registry
  | r, [] => ([], r)
  | r, d :: ds =>
      let (d, r) := prepare r d
      let (ds, r) := prepareAll r ds
      (d :: ds, r)

/-- Creates and registers the link of a doclet, unless it is anonymous. -/
def registerLink (r : Registry) (d : Doclet) : Registry :=
  if d.longname == "" then r
  else
    let (url, r) := r.createLink d
    r.register d.longname url

/-- Stores the short form of the source path of a doclet, unless it is anonymous. -/
def setShortpath (short : List (String × String)) (d : Doclet) : Doclet :=
  if d.longname == "" then d
  else
    match d.origin, d.sourcePath.bind fun path => short.lookup path with
    | some origin, some shortpath =>
        { d with origin := some { origin with shortpath := shortpath } }
    | _, _ => d

/-- The fragment of a link, or the name of its doclet if it has none. -/
def idOf (url : String) (d : Doclet) : String :=
  match Text.cutAtLast (· == '#') url.toList with
  | some (_, fragment) => String.ofList fragment
  | none => d.displayName

/-- Whether the results of a doclet are shown. -/
def isSigned (d : Doclet) : Bool :=
  d.longname != "" && Signature.isNeeded d

/-- Stores the fragment and the signature of a doclet, unless it is anonymous. -/
def sign (r : Registry) (d : Doclet) : Except PublishError Doclet :=
  if d.longname == "" then .ok d
  else
    match r.resolve? d.longname with
    | none => .error (.missingUrl d.longname)
    | some url =>
        let d := { d with id := some (idOf url d) }
        .ok <|
          if Signature.isNeeded d then
            Signature.addAttributes (Signature.addReturns r (Signature.addParams d))
          else d

/-- Whether a doclet has a value with a declared type. -/
def isValue (d : Doclet) : Bool :=
  d.kind == .member || d.kind == .constant

/-- Adds the declared type to a value, which is a member from now on. -/
def addDeclaredType (r : Registry) (d : Doclet) : Doclet :=
  if isValue d then
    { Signature.addAttributes (Signature.addTypes r d) with kind := .member }
  else d

/-- Stores the links to the parents of a doclet among all doclets, and its declared type. -/
def complete (r : Registry) (ds : List Doclet) (d : Doclet) : Doclet :=
  addDeclaredType r { d with ancestors := Ancestors.links r ds d }

/-- Gives tutorials their pages. -/
def registerTutorials (r : Registry) (tutorials : List Tutorial) : Registry :=
  (Tutorial.walkAll tutorials).foldl (fun r t => (r.addTutorial t.name t.displayTitle).2) r

/-- Gives source files their pages. -/
def registerSources : Registry → List (String × String) → List SourceFile × Registry
  | r, [] => ([], r)
  | r, (path, shortpath) :: rest =>
      let (filename, r) := r.claimFile shortpath
      let (files, r) := registerSources (r.register shortpath filename) rest
      (⟨path, shortpath, filename⟩ :: files, r)

/-- The registry in which only what is documented elsewhere is known. -/
def initial (s : PublishSettings) : Registry :=
  s.linkMap.foldl (fun r (name, url) => r.registerAlias name url) Registry.new

/-- What is to be said about references to the types of results. -/
def resultWarnings (r : Registry) (d : Doclet) : List Warning :=
  if isSigned d then Signature.warnings d.longname (Signature.resultReferences r d) else []

/-- What is to be said about references to parents. -/
def ancestorWarnings (r : Registry) (ds : List Doclet) (d : Doclet) : List Warning :=
  Signature.warnings d.longname (Ancestors.references r ds d)

/-- What is to be said about references to declared types. -/
def typeWarnings (r : Registry) (d : Doclet) : List Warning :=
  if isValue d then Signature.warnings d.longname (Signature.declaredReferences r d) else []

/-- The expansion that the settings ask for. -/
def expander (s : PublishSettings) : Expander :=
  { Expander.new s.ticketBaseUrl s.ticketMark with halt := s.halt }

/-- Publishes a documentation. -/
def run (s : PublishSettings) (ds : List Doclet) (tutorials : List Tutorial) :
    Except PublishError Publication := do
  let kept := Doclet.sortByLongname (Doclet.prune ds)
  let (prepared, r) := prepareAll (initial s) kept
  let short := SourcePath.shorten (SourcePath.ofDoclets kept)
  let registered := prepared.foldl registerLink r
  let expanded := prepared.map fun d => (expander s).expandDoclet (setShortpath short d)
  let (aliases, linked) := Shortname.addAliases registered
  let signed ← expanded.mapM (sign linked)
  let completed := signed.map (complete linked signed)
  let members := Members.categorize completed tutorials
  let (sourceFiles, final) := registerSources (registerTutorials linked tutorials) short
  return {
    doclets := Doclet.attachExports completed
    registry := final
    aliases := aliases
    members := members
    pages := Page.all final members tutorials sourceFiles
    sourceFiles := sourceFiles
    warnings := Shortname.warnings registered ++ expanded.flatMap (resultWarnings linked) ++
      signed.flatMap (ancestorWarnings linked signed) ++
        signed.flatMap (typeWarnings linked) }

end Publication

end DocLinks
