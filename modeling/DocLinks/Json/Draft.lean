import DocLinks.Json.Token
import DocLinks.Json.Basic

/-!
# JSON drafts

The tree of a JSON text as far as the text can be read.  Where reading stops the tree ends
with a broken node, and everything that was open there is closed.  So whoever walks the tree
in the order of the text meets the first problem of the text first, be it a broken node or a
value that is not of the wanted form.

**Algorithm.**  One token at a time, with a stack of the arrays and objects that are still
open.
-/

namespace DocLinks
namespace Json

/-- The tree of a JSON text, as far as it can be read.  Fields stand in the order of the
text.  What is unreadable is delimited but has no value; at what is broken, reading stopped.
-/
inductive Draft where
  | null
  | bool (b : Bool)
  | number (n : Numeral)
  | string (s : String)
  | unreadable
  | array (items : List Draft)
  | object (fields : List (Draft × Draft))
  | broken (p : Problem)
  deriving Inhabited

/-- An array or object that is still open; what it holds so far is in reverse order. -/
inductive Frame where
  /-- An array and its items. -/
  | array (items : List Draft)
  /-- An object and its fields. -/
  | object (fields : List (Draft × Draft))
  /-- An object, its fields and a name that waits for its value. -/
  | field (fields : List (Draft × Draft)) (name : Draft)

/-- What may come next. -/
inductive Expected where
  /-- A value. -/
  | value
  /-- A value, or the end of an array that has just begun. -/
  | valueOrEnd
  /-- The name of a field. -/
  | name
  /-- The name of a field, or the end of an object that has just begun. -/
  | nameOrEnd
  /-- The colon after a name. -/
  | colon
  /-- A comma or the end of what is open. -/
  | commaOrEnd
  deriving DecidableEq

/-- A whole text: its tree, and whether anything but blanks follows it. -/
structure Document where
  root : Draft
  hasTrailing : Bool

namespace Draft

/-- Closes everything that is open around a node. -/
def closeAll (d : Draft) : List Frame → Draft
  | [] => d
  | .array items :: open_ => closeAll (.array (d :: items).reverse) open_
  | .object fields :: open_ => closeAll (.object ((d, d) :: fields).reverse) open_
  | .field fields name :: open_ => closeAll (.object ((name, d) :: fields).reverse) open_

/-- The document of a text that cannot be read further. -/
def stop (p : Problem) (stack : List Frame) : Document :=
  ⟨closeAll (.broken p) stack, false⟩

/-- What is wrong with a token where a value should stand. -/
def valueProblem : Token → Problem
  | .broken p => p
  | .brokenText p => p
  | _ => .malformed

/-- What is wrong with a token where the name of a field should stand. -/
def nameProblem : Token → Problem
  | .brokenText p => p
  | _ => .malformed

/-- The value of a token that stands for a whole value. -/
def leaf? : Token → Option Draft
  | .null => some null
  | .bool b => some (bool b)
  | .numeral n => some (number n)
  | .text s => some (string s)
  | .badText => some unreadable
  | _ => none

/-- What has been read so far.  As long as something is missing, it is known what is open and
what may come next; nothing is looked at any more once the state is closed. -/
inductive State where
  | reading (stack : List Frame) (expected : Expected)
  | complete (d : Draft)
  | closed (doc : Document)

/-- Puts a complete value where it belongs. -/
def place (d : Draft) : List Frame → State
  | [] => .complete d
  | .array items :: rest => .reading (.array (d :: items) :: rest) .commaOrEnd
  | .field fields name :: rest =>
      .reading (.object ((name, d) :: fields) :: rest) .commaOrEnd
  | .object fields :: rest => .closed (stop .malformed (.object fields :: rest))

/-- A token where a value should stand. -/
def startValue (t : Token) (stack : List Frame) : State :=
  match t with
  | .openArray => .reading (.array [] :: stack) .valueOrEnd
  | .openObject => .reading (.object [] :: stack) .nameOrEnd
  | t =>
      match leaf? t with
      | some d => place d stack
      | none => .closed (stop (valueProblem t) stack)

/-- A token where the name of a field should stand. -/
def startField (t : Token) (stack : List Frame) : State :=
  match t, stack with
  | .text s, .object fields :: rest => .reading (.field fields (.string s) :: rest) .colon
  | .badText, .object fields :: rest => .reading (.field fields .unreadable :: rest) .colon
  | t, stack => .closed (stop (nameProblem t) stack)

/-- Reads one token. -/
def step : State → Token → State
  | .closed doc, _ => .closed doc
  | .complete d, _ => .closed ⟨d, true⟩
  | .reading stack .value, t => startValue t stack
  | .reading stack .valueOrEnd, t =>
      match t, stack with
      | .closeArray, .array items :: rest => place (.array items.reverse) rest
      | t, stack => startValue t stack
  | .reading stack .name, t => startField t stack
  | .reading stack .nameOrEnd, t =>
      match t, stack with
      | .closeObject, .object fields :: rest => place (.object fields.reverse) rest
      | t, stack => startField t stack
  | .reading stack .colon, t =>
      match t with
      | .colon => .reading stack .value
      | _ => .closed (stop .malformed stack)
  | .reading stack .commaOrEnd, t =>
      match t, stack with
      | .comma, .array items :: rest => .reading (.array items :: rest) .value
      | .comma, .object fields :: rest => .reading (.object fields :: rest) .name
      | .closeArray, .array items :: rest => place (.array items.reverse) rest
      | .closeObject, .object fields :: rest => place (.object fields.reverse) rest
      | _, stack => .closed (stop .malformed stack)

/-- The document once all tokens have been read. -/
def State.finish : State → Document
  | .reading stack _ => stop .cutShort stack
  | .complete d => ⟨d, false⟩
  | .closed doc => doc

/-- The document of a list of tokens. -/
def ofTokens (ts : List Token) : Document :=
  (ts.foldl step (.reading [] .value)).finish

/-- The document of a text. -/
def ofText (s : List Char) : Document :=
  ofTokens (tokens s)

end Draft
end Json
end DocLinks
