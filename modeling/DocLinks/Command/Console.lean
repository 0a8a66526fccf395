import DocLinks.Environment

/-!
# Lines on the console

The messages that accompany a result.  On a terminal they are coloured, unless the
environment says otherwise; the environment can also ask for colours elsewhere.
-/

namespace DocLinks
namespace Command

/-- How a text is set off. -/
inductive Ink where
  | green
  | yellow
  | red
  | bold
  | boldCyan
  deriving DecidableEq, Repr

namespace Ink

/-- The numbers of the control sequences that switch to an ink. -/
def codes : Ink → List String
  | green => ["32"]
  | yellow => ["33"]
  | red => ["31"]
  | bold => ["1"]
  | boldCyan => ["36", "1"]

end Ink

/-- The control sequence of the given number. -/
def control (code : String) : String :=
  "\x1b[" ++ code ++ "m"

/-- A text in an ink, if there are colours. -/
def paint (colored : Bool) (ink : Ink) (s : String) : String :=
  if colored then String.join (ink.codes.map control) ++ s ++ control "0" else s

/-- Whether messages are coloured. -/
def usesColor (env : Environment) (onTerminal : Bool) : Bool :=
  let value (name : String) := (env.lookup? name.toList).map String.ofList
  let isOn (name default : String) : Bool := (value name).getD default != "0"
  let terminalHasColor :=
    match value "TERM" with
    | some term => term != "dumb"
    | none => false
  (onTerminal && (value "NO_COLOR").isNone && terminalHasColor && isOn "CLICOLOR" "1") ||
    isOn "CLICOLOR_FORCE" "0"

/-- A line. -/
def line (s : String) : String := s ++ "\n"

/-- The width of the column of labels. -/
def labelWidth : Nat := 12

/-- A row with a label and a value. -/
def row (label value : String) : String :=
  let label := label ++ ":"
  "  " ++ label ++ String.ofList (List.replicate (labelWidth - label.length) ' ') ++ " " ++
  value

/-- A title under a rule. -/
def heading (colored : Bool) (title : String) : String :=
  line (String.ofList (List.replicate 48 '-')) ++ line (paint colored .boldCyan title)

/-- A row with a number. -/
def countRow (colored : Bool) (label : String) (n : Nat) : String :=
  line (row label (paint colored .bold (toString n)))

/-- A row that lists names, unless there are none. -/
def listRow (colored : Bool) (label : String) (names : List String) : String :=
  if names.isEmpty then ""
  else line (paint colored .yellow (row label (", ".intercalate names)))

end Command
end DocLinks
