import DocLinks.Command.Run

/-!
# The program

Gathers what a run can see, makes its plan and carries it out.
-/

namespace DocLinks
namespace Main

open Command

/-- Whether an error code stands for the given number; some layers of the system negate
it. -/
def isNumber (code number : UInt32) : Bool :=
  code == number || code == 0 - number

/-- The cause of a failure that the system reports. -/
def fileError : IO.Error → FileError
  | .noFileOrDirectory .. => .missing
  | .noSuchThing .. => .missing
  | .permissionDenied .. => .denied
  | e@(.inappropriateType _ code _) =>
      if isNumber code 20 then .notDirectory
      else if isNumber code 21 then .isDirectory
      else .other (toString e)
  | e@(.resourceExhausted _ code _) =>
      if isNumber code 36 then .nameTooLong else .other (toString e)
  | e => .other (toString e)

/-- Reads a file. -/
def readFile (path : String) : IO (Except FileError ByteArray) := do
  match ← (IO.FS.readBinFile path).toBaseIO with
  | .ok bytes => return .ok bytes
  | .error e => return .error (fileError e)

/-- A directory and those above it, nearest first. -/
def searchPath (directory : String) : List String :=
  let names := (Text.fields (· == '/') directory.toList).map String.ofList
  let lead (n : Nat) := "/".intercalate (names.take n)
  ((List.range names.length).map fun n => lead (n + 1)).reverse.map fun path =>
    if path.isEmpty then "/" else path

/-- The paths that a request may read. -/
def pathsOf (search : List String) : Option Request → List String
  | some (.process i ..) => ofInput i
  | some (.nav i ..) => ofInput i
  | _ => []
where
  /-- The paths that an input may read. -/
  ofInput (i : Input) : List String :=
    i.doclets :: i.tutorials.toList ++
      match i.config with
      | some path => [path]
      | none => search.map (Files.within · Settings.fileName)

/-- The files that a request may read, as they are now. -/
def gather (request : Option Request) : IO Files := do
  let directory ← IO.currentDir
  let search := searchPath directory.toString
  let contents ← (pathsOf search request).mapM fun path => return (path, ← readFile path)
  return { searchPath := search, read := fun path =>
    (contents.lookup path).getD (.error .missing) }

/-- A variable with its value, as an entry of the environment spells them.  One that is no
text counts as not set. -/
def ofEntry? (entry : List UInt8) : Option (String × String) := do
  let s ← String.fromUTF8? ⟨entry.toArray⟩
  let (name, value) ← Text.cutAtFirst (· == '=') s.toList
  return (String.ofList name, String.ofList value)

/-- The variables of the environment. -/
def environment : IO Environment := do
  match ← readFile "/proc/self/environ" with
  | .error _ => return {}
  | .ok bytes => return ⟨(bytes.toList.splitOnP (· == 0)).filterMap ofEntry?⟩

/-- Carries out a plan. -/
def perform : Plan → IO Outcome
  | .finished o => return o
  | .write path content next => do
      match ← (IO.FS.writeFile path content).toBaseIO with
      | .ok _ => return next none
      | .error e => return next (some (fileError e))

end Main
end DocLinks

open DocLinks in
/-- Runs the program. -/
def main (args : List String) : IO UInt32 := do
  let files ← Main.gather (Command.Request.ofArguments? args)
  let onTerminal ← (← IO.getStdout).isTty
  let w : Command.Surroundings := ⟨files, ← Main.environment, onTerminal⟩
  let o ← Main.perform (w.run args)
  IO.print o.stdout
  IO.eprint o.stderr
  return o.exitCode.toUInt32
