import DocLinks.Toml.Scalar
import DocLinks.Toml.Token

/-!
# TOML statements

A TOML text is a list of statements: headers, which name the table that follows, and
assignments, which give a key its value.  Which tables they make up together is not decided
here.

**Algorithm.**  One token at a time, with a stack of what is still open: the assignment at
hand, and the arrays and braces in its value.

**Results.**  `reverse_finish`: the statements come in the order of the text.
-/

namespace DocLinks
namespace Toml

/-- The parts of a key, outermost first. -/
abbrev Path := List String

/-- A value as it is written; between braces stand assignments. -/
inductive Term where
  | leaf (v : Value)
  | array (items : List Term)
  | braces (fields : List (Path × Term))
  deriving Inhabited

/-- A statement of a TOML text: it gives a key of the current table its value, makes a table
the current one, or adds a table to a list of tables and makes it the current one. -/
inductive Statement where
  | assign (path : Path) (value : Term)
  | header (path : Path)
  | listHeader (path : Path)
  deriving Inhabited

/-- Something that is still open; what it holds so far is in reverse order. -/
inductive Frame where
  /-- An assignment that waits for its value. -/
  | assignment (path : Path)
  /-- An array and its items. -/
  | array (items : List Term)
  /-- Braces and the assignments between them. -/
  | braces (fields : List (Path × Term))
  /-- Braces, and an assignment between them that waits for its value. -/
  | field (fields : List (Path × Term)) (path : Path)

/-- What a key is for. -/
inductive KeyUse where
  | assignment
  | header
  | listHeader
  deriving DecidableEq

/-- What may come next. -/
inductive Mode where
  /-- A statement, or the end of the text. -/
  | statement
  /-- What follows the bracket at the start of a header. -/
  | headerStart
  /-- A part of a key, given the parts before it in reverse order. -/
  | keyPart (use : KeyUse) (parts : Path)
  /-- What follows a part of a key. -/
  | keyRest (use : KeyUse) (parts : Path)
  /-- The equals sign after a key between braces, on this line or a later one. -/
  | equalsSign (path : Path)
  /-- The first part of a key, or the end of the braces. -/
  | keyOrEnd
  /-- The second bracket at the end of a list header. -/
  | headerEnd (path : Path)
  /-- A value. -/
  | value
  /-- A value, or the end of the array. -/
  | valueOrEnd
  /-- More of an unquoted value. -/
  | scalar (s : List Char)
  /-- A time after a date and a space, or what follows the date. -/
  | timeOrRest (date : List Char)
  /-- What follows a value or a header: a separator, the end of what is open, or the end of
  the line. -/
  | rest

/-- What has been read so far: the complete statements in reverse order, what is open,
innermost first, and what may come next. -/
structure Reading where
  statements : List Statement
  stack : List Frame
  mode : Mode

/-- How many arrays and braces may be open inside each other, and how many parts a key may
have. -/
def maxDepth : Nat := 80

namespace Reading

/-- The reading before the first token. -/
def start : Reading := ⟨[], [], .statement⟩

/-- Goes on in another mode. -/
def expect (r : Reading) (mode : Mode) : Reading := { r with mode := mode }

/-- Puts a complete value where it belongs. -/
def place (r : Reading) (t : Term) : Option Reading :=
  match r.stack with
  | .assignment path :: stack => some ⟨.assign path t :: r.statements, stack, .rest⟩
  | .array items :: stack => some ⟨r.statements, .array (t :: items) :: stack, .rest⟩
  | .field fields path :: stack =>
      some ⟨r.statements, .braces ((path, t) :: fields) :: stack, .rest⟩
  | _ => none

/-- Opens an array or braces. -/
def openFrame (r : Reading) (frame : Frame) (mode : Mode) : Option Reading :=
  if r.stack.length ≤ maxDepth then some ⟨r.statements, frame :: r.stack, mode⟩ else none

/-- Closes the innermost array. -/
def closeArray (r : Reading) : Option Reading :=
  match r.stack with
  | .array items :: stack => place { r with stack := stack } (.array items.reverse)
  | _ => none

/-- Closes the innermost braces. -/
def closeBraces (r : Reading) : Option Reading :=
  match r.stack with
  | .braces fields :: stack => place { r with stack := stack } (.braces fields.reverse)
  | _ => none

/-- Whether a line may end inside of what is open. -/
def spansLines (r : Reading) : Bool :=
  match r.stack with
  | .array _ :: _ => true
  | .braces _ :: _ => true
  | _ => false

/-- Whether an assignment between braces is being read; a line may end anywhere around its
equals sign. -/
def inBraces (r : Reading) : Bool :=
  match r.stack with
  | .braces _ :: _ => true
  | .field _ _ :: _ => true
  | _ => false

/-- Whether a character may stand in a part of a key without quotes. -/
def isBare (c : Char) : Bool :=
  c.isAlphanum || c == '_' || c == '-'

/-- The part of a key that a token spells. -/
def keyPart? : Token → Option String
  | .word s => if s.all isBare then some (String.ofList s) else none
  | .quoted s false => some (String.ofList s)
  | _ => none

/-- A token where a part of a key must stand. -/
def readKeyPart (r : Reading) (use : KeyUse) (parts : Path) (t : Token) : Option Reading :=
  if parts.length < maxDepth then
    (keyPart? t).map fun part => r.expect (.keyRest use (part :: parts))
  else none

/-- The end of a key: the value or the second bracket must follow. -/
def endKey (r : Reading) (use : KeyUse) (path : Path) (t : Token) : Option Reading :=
  match use, t with
  | .assignment, .equals =>
      match r.stack with
      | .braces fields :: stack => some ⟨r.statements, .field fields path :: stack, .value⟩
      | [] => some ⟨r.statements, [.assignment path], .value⟩
      | _ => none
  | .header, .closeBracket => some ⟨.header path :: r.statements, r.stack, .rest⟩
  | .listHeader, .closeBracket => some (r.expect (.headerEnd path))
  | _, _ => none

/-- A token where a value must stand. -/
def readValue (r : Reading) (t : Token) : Option Reading :=
  match t with
  | .openBracket => r.openFrame (.array []) .valueOrEnd
  | .openBrace => r.openFrame (.braces []) .keyOrEnd
  | .quoted s _ => r.place (.leaf (.text (String.ofList s)))
  | .word s => some (r.expect (.scalar s))
  | .dot => some (r.expect (.scalar ['.']))
  | _ => none

/-- Puts an unquoted value where it belongs. -/
def placeScalar (r : Reading) (s : List Char) : Option Reading :=
  (scalar? s).bind fun v => r.place (.leaf v)

/-- A token after a value or a header. -/
def readRest (r : Reading) (t : Token) : Option Reading :=
  match t with
  | .blank _ => some (r.expect .rest)
  | .comment => some (r.expect .rest)
  | .lineBreak =>
      if r.stack.isEmpty then some (r.expect .statement)
      else if r.spansLines then some (r.expect .rest)
      else none
  | .comma =>
      match r.stack with
      | .array _ :: _ => some (r.expect .valueOrEnd)
      | .braces _ :: _ => some (r.expect .keyOrEnd)
      | _ => none
  | .closeBracket => r.closeArray
  | .closeBrace => r.closeBraces
  | _ => none

/-- A token where a statement may start. -/
def readStatement (r : Reading) (t : Token) : Option Reading :=
  match t with
  | .blank _ => some r
  | .comment => some r
  | .lineBreak => some r
  | .openBracket => some (r.expect .headerStart)
  | t => r.readKeyPart .assignment [] t

/-- Reads one token. -/
def step (r : Reading) (t : Token) : Option Reading :=
  match r.mode with
  | .statement => r.readStatement t
  | .headerStart =>
      match t with
      | .openBracket => some (r.expect (.keyPart .listHeader []))
      | .blank _ => some (r.expect (.keyPart .header []))
      | t => r.readKeyPart .header [] t
  | .keyPart use parts =>
      match t with
      | .blank _ => some r
      | t => r.readKeyPart use parts t
  | .keyRest use parts =>
      match t with
      | .blank _ => some r
      | .dot => some (r.expect (.keyPart use parts))
      | .comment => if r.inBraces then some (r.expect (.equalsSign parts.reverse)) else none
      | .lineBreak =>
          if r.inBraces then some (r.expect (.equalsSign parts.reverse)) else none
      | t => r.endKey use parts.reverse t
  | .equalsSign path =>
      match t with
      | .blank _ => some r
      | .comment => some r
      | .lineBreak => some r
      | t => r.endKey .assignment path t
  | .keyOrEnd =>
      match t with
      | .blank _ => some r
      | .comment => some r
      | .lineBreak => some r
      | .closeBrace => r.closeBraces
      | t => r.readKeyPart .assignment [] t
  | .headerEnd path =>
      match t with
      | .closeBracket => some ⟨.listHeader path :: r.statements, r.stack, .rest⟩
      | _ => none
  | .value =>
      match t with
      | .blank _ => some r
      | .comment => if r.inBraces then some r else none
      | .lineBreak => if r.inBraces then some r else none
      | t => r.readValue t
  | .valueOrEnd =>
      match t with
      | .blank _ => some r
      | .comment => some r
      | .lineBreak => some r
      | .closeBracket => r.closeArray
      | t => r.readValue t
  | .scalar s =>
      match t with
      | .word w => some (r.expect (.scalar (s ++ w)))
      | .dot => some (r.expect (.scalar (s ++ ['.'])))
      | .blank [' '] =>
          if isDate s then some (r.expect (.timeOrRest s))
          else (r.placeScalar s).map fun r => r.expect .rest
      | t => (r.placeScalar s).bind fun r => r.readRest t
  | .timeOrRest date =>
      match t with
      | .word w => some (r.expect (.scalar (date ++ ' ' :: w)))
      | t => (r.placeScalar date).bind fun r => r.readRest t
  | .rest => r.readRest t

/-- The statements once all tokens have been read, unless something is still open. -/
def finish (r : Reading) : Option (List Statement) :=
  let closed : Option Reading :=
    match r.mode with
    | .statement => some r
    | .rest => some r
    | .scalar s => r.placeScalar s
    | .timeOrRest date => r.placeScalar date
    | _ => none
  closed.bind fun r => if r.stack.isEmpty then some r.statements.reverse else none

theorem reverse_finish {statements : List Statement} :
    finish ⟨statements, [], .statement⟩ = some statements.reverse := rfl

end Reading

/-- The statements of a text. -/
def statements? (s : List Char) : Option (List Statement) :=
  ((tokens (dropOrderMark s)).foldlM Reading.step Reading.start).bind Reading.finish

end Toml
end DocLinks
