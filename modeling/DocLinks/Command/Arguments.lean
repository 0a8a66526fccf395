import DocLinks.Text.Split

/-!
# Arguments

What a user asks for on the command line.  There are two subcommands; each reads a file of
doclets and has options, some of which take a value.

**Spelling.**  A value follows its option as the next argument, or in the same one: behind an
equals sign for a long option, directly or behind an equals sign for a short one.  Short
options may share one argument.  After `--` nothing is an option.  No option may be given
twice, and no path is empty.

**Order.**  Arguments are read from left to right, and the first one that asks for help or
cannot be understood ends the reading.
-/

namespace DocLinks
namespace Command

/-- A subcommand: one resolves the links of doclets, the other one shows the sidebar. -/
inductive Verb where
  | process
  | nav
  deriving DecidableEq, Repr

/-- What an option is about. -/
inductive Choice where
  | tutorials
  | config
  | longnames
  | ticketBaseUrl
  | verbose
  | output
  | pretty
  | page
  | json
  | help
  deriving DecidableEq, Repr

/-- What an option takes.  A path is a text that is not empty. -/
inductive Operand where
  | nothing
  | text
  | path
  deriving DecidableEq, Repr

/-- How an option is written: what it is about, its long name, its letter, and what it takes.
-/
structure Flag where
  choice : Choice
  long : String
  short : Option Char
  operand : Operand

/-- The options of both subcommands. -/
def sharedFlags : List Flag :=
  [⟨.tutorials, "tutorials", none, .path⟩,
   ⟨.config, "config", some 'c', .path⟩,
   ⟨.longnames, "use-longname-in-nav", none, .nothing⟩,
   ⟨.ticketBaseUrl, "phabricator-base-url", none, .text⟩,
   ⟨.verbose, "verbose", some 'v', .nothing⟩,
   ⟨.help, "help", some 'h', .nothing⟩]

namespace Verb

/-- The name of a subcommand. -/
def name : Verb → String
  | process => "process"
  | nav => "nav"

/-- The subcommand of the given name. -/
def ofName? (s : String) : Option Verb :=
  [process, nav].find? (·.name == s)

/-- The options of a subcommand. -/
def flags : Verb → List Flag
  | process =>
      sharedFlags ++ [⟨.output, "output", some 'o', .path⟩,
        ⟨.pretty, "pretty", none, .nothing⟩]
  | nav => sharedFlags ++ [⟨.page, "page", some 'p', .text⟩, ⟨.json, "json", none, .nothing⟩]

end Verb

/-- Why the reading of arguments ends early. -/
inductive Stop where
  | help
  | misuse
  deriving DecidableEq, Repr

/-- What has been read so far: the options with their values, the file of doclets, the option
that waits for its value, and whether nothing is an option any more. -/
structure Reading where
  given : List (Choice × String) := []
  doclets : Option String := none
  pending : Option Flag := none
  onlyPaths : Bool := false

namespace Reading

/-- Whether an option was given. -/
def has (r : Reading) (c : Choice) : Bool :=
  (r.given.lookup c).isSome

/-- Gives an option its value. -/
def set (r : Reading) (f : Flag) (value : String) : Except Stop Reading :=
  if f.choice == .help then .error .help
  else if r.has f.choice || (f.operand == .path && value == "") then .error .misuse
  else .ok { r with given := (f.choice, value) :: r.given, pending := none }

/-- Reads a path. -/
def readPath (r : Reading) (path : String) : Except Stop Reading :=
  if path == "" || r.doclets.isSome then .error .misuse
  else .ok { r with doclets := some path }

/-- Reads a long option, whose value may stand behind an equals sign. -/
def readLong (r : Reading) (flags : List Flag) (s : List Char) : Except Stop Reading :=
  let (name, value) :=
    match Text.cutAtFirst (· == '=') s with
    | some (name, value) => (name, some (String.ofList value))
    | none => (s, none)
  match flags.find? fun f => f.long.toList == name with
  | none => .error .misuse
  | some f =>
      match f.operand, value with
      | .nothing, none => r.set f ""
      | .nothing, some _ => .error .misuse
      | _, some value => r.set f value
      | _, none => .ok { r with pending := some f }

/-- The value behind a letter, without the equals sign that may separate them. -/
def attached : List Char → String
  | '=' :: s => String.ofList s
  | s => String.ofList s

/-- Reads letters; the first one that takes a value is given the rest of them. -/
def readLetters (r : Reading) (flags : List Flag) : List Char → Except Stop Reading
  | [] => .ok r
  | c :: s =>
      match flags.find? fun f => f.short == some c with
      | none => .error .misuse
      | some f =>
          if f.operand == .nothing then
            match r.set f "" with
            | .ok r => readLetters r flags s
            | .error stop => .error stop
          else if s.isEmpty then .ok { r with pending := some f }
          else r.set f (attached s)

/-- Reads one argument. -/
def readArgument (flags : List Flag) (r : Reading) (arg : String) : Except Stop Reading :=
  let pending? (next : Except Stop Reading) : Except Stop Reading :=
    if r.pending.isSome then .error .misuse else next
  if r.onlyPaths then r.readPath arg
  else
    match arg.toList with
    | ['-', '-'] => pending? (.ok { r with onlyPaths := true })
    | '-' :: '-' :: s => pending? (r.readLong flags s)
    | '-' :: c :: s => pending? (r.readLetters flags (c :: s))
    | _ =>
        match r.pending with
        | some f => r.set f arg
        | none => r.readPath arg

/-- Reads all arguments of a subcommand. -/
def ofArguments (flags : List Flag) (args : List String) : Except Stop Reading := do
  let r ← args.foldlM (readArgument flags) {}
  if r.pending.isSome then .error .misuse else .ok r

end Reading

/-- What both subcommands start from. -/
structure Input where
  doclets : String
  tutorials : Option String := none
  config : Option String := none
  longnames : Bool := false
  ticketBaseUrl : Option String := none
  deriving DecidableEq, Repr

/-- What help can be about. -/
inductive Topic where
  | program
  | verb (v : Verb)
  | help
  deriving DecidableEq, Repr

/-- What a user asks for. -/
inductive Request where
  | version
  | help (topic : Topic)
  | process (input : Input) (output : Option String) (pretty : Bool)
  | nav (input : Input) (page : String) (json : Bool)
  deriving DecidableEq, Repr

/-- The page from which the sidebar is seen unless another one is asked for. -/
def defaultPage : String := "index.html"

namespace Request

/-- The request of a complete reading. -/
def ofReading? (v : Verb) (r : Reading) : Option Request :=
  r.doclets.map fun doclets =>
    let value (c : Choice) := r.given.lookup c
    let input : Input :=
      { doclets := doclets
        tutorials := value .tutorials
        config := value .config
        longnames := r.has .longnames
        ticketBaseUrl := value .ticketBaseUrl }
    match v with
    | .process => process input (value .output) (r.has .pretty)
    | .nav => nav input ((value .page).getD defaultPage) (r.has .json)

/-- The request of a subcommand. -/
def ofVerb? (v : Verb) (args : List String) : Option Request :=
  match Reading.ofArguments v.flags args with
  | .ok r => ofReading? v r
  | .error .help => some (help (.verb v))
  | .error .misuse => none

/-- The request of the subcommand that shows help. -/
def ofHelp? : List String → Option Request
  | [] => some (help .program)
  | [name] =>
      if name == "help" then some (help .help)
      else (Verb.ofName? name).map fun v => help (.verb v)
  | _ => none

/-- The request of an option of the program itself. -/
def ofOption? (arg : String) : Option Request :=
  if arg == "--version" then some version
  else if arg == "--help" then some (help .program)
  else
    match arg.toList with
    | '-' :: 'V' :: _ => some version
    | '-' :: 'h' :: _ => some (help .program)
    | _ => none

/-- The request that arguments spell. -/
def ofArguments? : List String → Option Request
  | [] => none
  | first :: rest =>
      match Verb.ofName? first with
      | some v => ofVerb? v rest
      | none => if first == "help" then ofHelp? rest else ofOption? first

end Request

end Command
end DocLinks
