import DocLinks.Command.Arguments

/-!
# Help

The texts that explain the program, its subcommands and their options.
-/

namespace DocLinks
namespace Command

/-- The name of the program. -/
def programName : String := "xref"

/-- The version of the program. -/
def versionLine : String := programName ++ " 0.1.0"

/-- The variable that may hold what the links of tickets start with. -/
def baseUrlVariable : String := "XREF_PHABRICATOR_BASE_URL"

/-- An option with its explanation below it. -/
def explained (option explanation : String) : String :=
  option ++ "\n          " ++ explanation ++ "\n"

/-- The options of both subcommands, given the value of the variable for tickets. -/
def sharedOptions (baseUrl : String) : String :=
  explained "      --tutorials <TUTORIALS>"
      "Tutorial JSON array of `\x7bname, title, children\x7d` objects" ++
    explained "  -c, --config <CONFIG>"
      "Path to configuration file (default: auto-discover xref.toml)" ++
    explained "      --use-longname-in-nav"
      "Show full long names in the navigation (overrides config)" ++
    explained "      --phabricator-base-url <PHABRICATOR_BASE_URL>"
      ("Base URL for ticket links (overrides config) [env: " ++
        baseUrlVariable ++ "=" ++ baseUrl ++
        "]") ++
    explained "  -v, --verbose" "Enable verbose output"

/-- The options of a subcommand alone. -/
def ownOptions : Verb → String
  | .process =>
      explained "  -o, --output <OUTPUT>"
        "Output file for processed doclets (default: stdout)" ++
        explained "      --pretty" "Pretty-print the output JSON"
  | .nav =>
      explained "  -p, --page <PAGE>"
          ("Page filename to highlight (e.g. \"module-ui.html\") [default: " ++
            defaultPage ++ "]") ++
        explained "      --json" "Print the navigation as JSON instead of markup"

/-- What a subcommand does. -/
def summary : Verb → String
  | .process => "Process a doclet set and write the rewritten doclets"
  | .nav => "Print the navigation markup for a page"

/-- What the help does. -/
def helpSummary : String := "Print this message or the help of the given subcommand(s)"

/-- The help on a topic, given the value of the variable for tickets. -/
def helpText (baseUrl : String) : Topic → String
  | .program =>
      "API documentation cross-referencer - CLI\n\nUsage: " ++ programName ++
      " <COMMAND>\n\n" ++
        "Commands:\n  process  " ++ summary .process ++ "\n  nav      " ++ summary .nav ++
        "\n  help     " ++ helpSummary ++
        "\n\nOptions:\n  -h, --help     Print help\n  -V, --version  Print version\n"
  | .verb v =>
      summary v ++ "\n\nUsage: " ++ programName ++ " " ++ v.name ++
      " [OPTIONS] <DOCLETS>\n\n" ++
        "Arguments:\n" ++
        "  <DOCLETS>  Doclet JSON array produced by the documentation parser\n\n" ++
        "Options:\n" ++ sharedOptions baseUrl ++ ownOptions v ++
        explained "  -h, --help" "Print help"
  | .help =>
      helpSummary ++ "\n\nUsage: " ++ programName ++ " help [COMMAND]...\n\n" ++
        "Arguments:\n  [COMMAND]...  Print help for the subcommand(s)\n"

end Command
end DocLinks
