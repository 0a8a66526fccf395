import DocLinks.Command.Console
import DocLinks.Command.Help
import DocLinks.FileTree
import DocLinks.Navigation.View
import DocLinks.Publication.Document
import DocLinks.Settings.Load

/-!
# Running a request

What the program says and writes, given its arguments, the environment and the files.

A run reads its files first.  It writes at most one file, so it is described as a plan:
either it is finished, or one text is to be written and the rest depends on whether that can
be done.

**Order.**  Settings come first, then doclets, then tutorials; the first problem ends the
run.
-/

namespace DocLinks
namespace Command

/-- What a run can see. -/
structure Surroundings where
  files : Files
  environment : Environment
  onTerminal : Bool := false

/-- What a run leaves behind besides files. -/
structure Outcome where
  exitCode : Nat
  stdout : String
  stderr : String
  deriving DecidableEq, Repr

/-- A run after its files have been read.  If a text is to be written, what follows depends
on whether that can be done. -/
inductive Plan where
  | finished (o : Outcome)
  | write (path content : String) (next : Option FileError → Outcome)

/-- Why a run fails. -/
inductive Failure where
  | settings (e : SettingsError)
  | file (e : FileError)
  | json (path : String)
  | publish (e : PublishError)
  deriving DecidableEq, Repr

namespace Failure

/-- What is said about a failure. -/
def message : Failure → String
  | settings e => e.message
  | file e => e.message
  | json path => "Invalid JSON in " ++ path ++ ":"
  | publish e => e.message

end Failure

namespace Surroundings

variable (w : Surroundings)

/-- Whether messages are coloured. -/
def colored : Bool := usesColor w.environment w.onTerminal

/-- The outcome of a run that fails after some messages. -/
def failed (messages : String) (f : Failure) : Outcome :=
  ⟨1, "", messages ++ line (paint w.colored .red ("Error: " ++ f.message))⟩

/-- What was chosen for the run, in the arguments or else in the environment. -/
def overrides (i : Input) : Overrides :=
  { showsLongnames := if i.longnames then some true else none
    ticketBaseUrl :=
      i.ticketBaseUrl <|> (w.environment.lookup? baseUrlVariable.toList).map String.ofList }

/-- The settings of the run. -/
def settings (i : Input) : Except Failure Settings :=
  (Settings.load w.files w.environment i.config (w.overrides i)).mapError .settings

/-- The values in a file. -/
def readList {α : Type} (f : Json.Form α) (path : String) : Except Failure (List α) := do
  let text ← (w.files.readText path).mapError .file
  (f.list.readText text).mapError fun _ => .json path

/-- Publishes the doclets of the run. -/
def publish (i : Input) (s : Settings) : Except Failure Publication := do
  let doclets ← w.readList Doclet.form i.doclets
  let tutorials ←
    match i.tutorials with
    | some path => w.readList Tutorial.form path
    | none => .ok []
  let settings : PublishSettings :=
    { ticketBaseUrl := s.ticketBaseUrl, ticketMark := s.ticketMark, linkMap := s.linkMap }
  (Publication.run settings doclets tutorials).mapError .publish

/-- The messages about what a run starts from. -/
def opening (i : Input) (s : Settings) : String :=
  ((s.source.map fun path => line ("Config: " ++ path)).getD "") ++
  line ("Doclets: " ++ i.doclets)

/-- The messages about what has been published. -/
def closing (p : Publication) : String :=
  heading w.colored "Summary" ++ countRow w.colored "Doclets" p.doclets.length ++
    countRow w.colored "Links" p.registry.entries.length ++
    countRow w.colored "Aliases" p.aliases.added.length ++
    countRow w.colored "Pages" p.pages.length ++
    countRow w.colored "Sources" p.sourceFiles.length ++
    listRow w.colored "Ambiguous" p.aliases.ambiguous

/-- The message about the file that has been written. -/
def writtenTo (path : String) : String :=
  line (paint w.colored .green ("Processed doclets written to " ++ path))

/-- Resolves the links of doclets. -/
def process (i : Input) (output : Option String) (pretty : Bool) : Plan :=
  match w.settings i with
  | .error f => .finished (w.failed "" f)
  | .ok s =>
      let opening := opening i s
      match w.publish i s with
      | .error f => .finished (w.failed opening f)
      | .ok p =>
          let text := p.document.write (if pretty then .indented else .compact)
          match output with
          | none => .finished ⟨0, line text, opening ++ w.closing p⟩
          | some path =>
              .write path text fun
                | some e => w.failed opening (.file e)
                | none => ⟨0, "", opening ++ w.closing p ++ w.writtenTo path⟩

/-- The message about a page to which nothing in the sidebar leads. -/
def notInSidebar (page : String) : String :=
  line (paint w.colored .yellow ("Page " ++ page ++ " is not in the navigation"))

/-- Shows the sidebar as seen from a page. -/
def nav (i : Input) (page : String) (json : Bool) : Outcome :=
  match (do let s ← w.settings i; return (s, ← w.publish i s)) with
  | .error f => w.failed "" f
  | .ok (s, p) =>
      let sidebar := Sidebar.build s.showsLongnames p.members p.registry
      let view := View.of sidebar page
      let text :=
        if json then (Json.array (NavItem.toJsonAll (view.items sidebar))).write .indented
        else view.render sidebar
      ⟨0, line text, if view.current.isEmpty then w.notInSidebar page else ""⟩

/-- The value of the variable for tickets, as help shows it. -/
def baseUrlShown : String :=
  ((w.environment.lookup? baseUrlVariable.toList).map String.ofList).getD ""

/-- The plan of a request. -/
def plan : Request → Plan
  | .version => .finished ⟨0, line versionLine, ""⟩
  | .help topic => .finished ⟨0, helpText w.baseUrlShown topic, ""⟩
  | .process i output pretty => w.process i output pretty
  | .nav i page json => .finished (w.nav i page json)

/-- The outcome if the arguments cannot be understood. -/
def misuse : Outcome := ⟨2, "", helpText w.baseUrlShown .program⟩

/-- The plan of a run. -/
def run (args : List String) : Plan :=
  match Request.ofArguments? args with
  | some request => w.plan request
  | none => .finished w.misuse

end Surroundings

namespace Plan

/-- Carries out a plan in a tree of files. -/
def performIn (t : FileTree) : Plan → Outcome × FileTree
  | finished o => (o, t)
  | write path content next =>
      match t.writeText path content with
      | .ok t => (next none, t)
      | .error e => (next (some e), t)

end Plan

end Command
end DocLinks
