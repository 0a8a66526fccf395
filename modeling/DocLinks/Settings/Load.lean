import DocLinks.Environment
import DocLinks.Settings.Table

/-!
# Loading settings

Settings come in layers.  At the bottom are the defaults; above them is the file, which is
the one that was asked for or else the nearest `xref.toml`; on top is what was chosen for
this run.

**Order.**  References to the environment are replaced, and the settings are validated, as
soon as the file has been read.  What was chosen for this run is taken as it is, and is not
validated again.

**Results.**  `ticketBaseUrl_override` and `showsLongnames_override`: what was chosen for
this run wins; `validate_override`: it cannot make valid settings invalid.
-/

namespace DocLinks

/-- What was chosen for a single run. -/
structure Overrides where
  showsLongnames : Option Bool := none
  ticketBaseUrl : Option String := none
  deriving DecidableEq, Repr, Inhabited

namespace Settings

/-- The name of the file that is looked for. -/
def fileName : String := "xref.toml"

/-- The settings with what was chosen for a run. -/
def override (s : Settings) (o : Overrides) : Settings :=
  { s with
    showsLongnames := o.showsLongnames.getD s.showsLongnames
    ticketBaseUrl := o.ticketBaseUrl.getD s.ticketBaseUrl }

/-- The text of a setting with its references replaced. -/
def expandText (env : Environment) (setting : ExpandedSetting) (text : String) :
    Except SettingsError String :=
  (env.expand text).mapError (.unset setting)

/-- The links of names that are documented elsewhere, with their references replaced. -/
def expandLinks (env : Environment) :
    List (String × String) → Except SettingsError (List (String × String))
  | [] => .ok []
  | (name, link) :: rest => do
      let link ← expandText env (.link name) link
      let rest ← expandLinks env rest
      return (name, link) :: rest

/-- The settings with the references to the environment replaced. -/
def expand (env : Environment) (s : Settings) : Except SettingsError Settings := do
  let baseUrl ← expandText env .ticketBaseUrl s.ticketBaseUrl
  let links ← expandLinks env s.linkMap
  return { s with ticketBaseUrl := baseUrl, linkMap := links }

/-- The settings if they are valid. -/
def validated (s : Settings) : Except SettingsError Settings :=
  match s.validate with
  | .ok _ => .ok s
  | .error d => .error (.invalid d)

/-- The settings in the file at a path. -/
def loadFile (files : Files) (env : Environment) (path : String) :
    Except SettingsError Settings := do
  let text ← (files.readText path).mapError .unreadable
  match ofText? text with
  | none => .error .malformed
  | some s => do
      let expanded ← s.expand env
      validated { expanded with source := some path }

/-- The settings below those of a run. -/
def loadBase (files : Files) (env : Environment) :
    (path : Option String) → Except SettingsError Settings
  | some path =>
      if files.isPresent path then loadFile files env path else .error (.notFound path)
  | none =>
      match files.find? fileName with
      | some path => loadFile files env path
      | none => .ok {}

/-- The settings of a run, given the path that was asked for, if any. -/
def load (files : Files) (env : Environment) (path : Option String) (o : Overrides) :
    Except SettingsError Settings :=
  (loadBase files env path).map (·.override o)

theorem showsLongnames_override (s : Settings) (o : Overrides) :
    (s.override o).showsLongnames = o.showsLongnames.getD s.showsLongnames := rfl

theorem ticketBaseUrl_override (s : Settings) (o : Overrides) :
    (s.override o).ticketBaseUrl = o.ticketBaseUrl.getD s.ticketBaseUrl := rfl

theorem validate_override (s : Settings) (o : Overrides) :
    (s.override o).validate = s.validate := rfl

end Settings

end DocLinks
