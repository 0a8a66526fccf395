import DocLinks.Text.Alphanumeric
import DocLinks.Text.Scan
import DocLinks.Text.Split

/-!
# Variables of the environment in configured texts

A configured text may refer to variables of the environment: `${NAME}` stands for the value
of the variable, `${NAME:-default}` for its value or, if it is not set, for the default.

A text with at least one opening `${` is read in a wider sense: a bare `$NAME` is a reference
too, and `$$` stands for one dollar sign.  A text without one is left alone.  Values and
defaults are inserted as they are; what looks like a reference in them stays.

**Values.**  Names and values are texts.  A variable whose value is no text counts as not
set.

**Results.**  `expand_of_not_occursIn`: a text without `${` is its own expansion;
`flatMap_source_cut_pattern`: the references and what stands between them make up the text.
-/

namespace DocLinks

/-- The variables that are set, with their values. -/
structure Environment where
  entries : List (String × String) := []
  deriving Repr, Inhabited

namespace Environment

/-- The value of a variable.  It is what follows the name and an equals sign in an entry
`NAME=VALUE`; no variable has an empty name. -/
def lookup? (env : Environment) (name : List Char) : Option (List Char) :=
  if name.isEmpty then none
  else
    env.entries.findSome? fun (key, value) =>
      Text.after? (name ++ ['=']) (key.toList ++ '=' :: value.toList)

/-- What a place in a text stands for: a single dollar sign, or the value of a variable, with
a default in case it is not set. -/
inductive Substitution where
  | dollar
  | valueOf (name : List Char) (fallback : Option (List Char))
  deriving DecidableEq, Repr

/-- The characters of a name without braces around it. -/
def isNameChar (c : Char) : Bool :=
  Text.isAlphanumeric c || c == '_'

/-- The name and the default between braces, given the name so far in reverse order.  They
are separated by the first `:-`. -/
def splitFallback (name : List Char) : List Char → List Char × Option (List Char)
  | ':' :: '-' :: s => (name.reverse, some s)
  | c :: s => splitFallback (c :: name) s
  | [] => (name.reverse, none)

/-- What stands between braces.  A default without a name in front of it is no default: all
of it is the name. -/
def braced (body : List Char) : Substitution :=
  match splitFallback [] body with
  | ([], some _) => .valueOf body none
  | (name, fallback) => .valueOf name fallback

/-- The references in a text.  Braces that are not closed refer to nothing. -/
def pattern : Text.Pattern Substitution := fun _ s =>
  match s with
  | '$' :: '{' :: s =>
      (Text.cutAtFirst (· == '}') s).map fun (body, _) => ⟨braced body, body.length + 2⟩
  | '$' :: '$' :: _ => some ⟨.dollar, 1⟩
  | '$' :: c :: s =>
      if isNameChar c then
        let name := c :: s.takeWhile isNameChar
        some ⟨.valueOf name none, name.length⟩
      else none
  | _ => none

/-- The text that is inserted, or the name of the variable that is not set. -/
def value (env : Environment) : Substitution → Except (List Char) (List Char)
  | .dollar => .ok ['$']
  | .valueOf name fallback =>
      match env.lookup? name, fallback with
      | some v, _ => .ok v
      | none, some d => .ok d
      | none, none => .error name

/-- The expansion of a piece of a text. -/
def expandPiece (env : Environment) :
    Text.Piece Substitution → Except (List Char) (List Char)
  | .gap s => .ok s
  | .hit v _ => env.value v

/-- Whether references are looked for in a text. -/
def hasReference (s : List Char) : Bool :=
  Text.occursIn ['$', '{'] s

/-- A text with its references replaced, or the name of the first variable that is not
set. -/
def expand (env : Environment) (s : String) : Except String String :=
  if hasReference s.toList then
    match (pattern.cut s.toList).mapM env.expandPiece with
    | .ok parts => .ok (String.ofList parts.flatten)
    | .error name => .error (String.ofList name)
  else .ok s

theorem expand_of_not_occursIn (env : Environment) {s : String}
    (h : hasReference s.toList = false) : env.expand s = .ok s := by
  simp [expand, h]

theorem flatMap_source_cut_pattern (s : List Char) :
    (pattern.cut s).flatMap Text.Piece.source = s :=
  pattern.flatMap_source_cut s

end Environment

end DocLinks
