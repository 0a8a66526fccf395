/-!
# TOML values

A TOML text describes a table of values.  The fields of a table have different names and
stand in the order of the text.

Floating-point numbers and moments are kept as texts: whoever needs them as numbers or dates
can still choose how.
-/

namespace DocLinks
namespace Toml

/-- A TOML value.  The literal of a float has no low lines between its digits; that of a
moment, which is a date, a time or both, is in canonical form. -/
inductive Value where
  | text (s : String)
  | bool (b : Bool)
  | integer (n : Int)
  | float (literal : String)
  | moment (literal : String)
  | array (items : List Value)
  | table (fields : List (String × Value))
  deriving Inhabited

namespace Value

/-- The text of a value that is one. -/
def text? : Value → Option String
  | text s => some s
  | _ => none

/-- The truth value of a value that is one. -/
def bool? : Value → Option Bool
  | bool b => some b
  | _ => none

/-- The name of the single field of a moment that is taken for a table. -/
def momentField : String := "$__toml_private_datetime"

/-- The fields of a value that can be taken for a table; a moment has one field with its
literal. -/
def fields? : Value → Option (List (String × Value))
  | table fields => some fields
  | moment literal => some [(momentField, text literal)]
  | _ => none

end Value

end Toml
end DocLinks
