import DocLinks.Reference

/-!
# Signatures and attributes for display

A signature is put together in up to three steps: parameters in parentheses, results behind
an arrow, and a declared type behind a colon.  Attributes are listed before a name.  All of
it is HTML and is stored with the doclet.

**Warnings.**  Those of a step are those of its type references, so a step warns once for
every type that nobody documents.
-/

namespace DocLinks
namespace Signature

/-- Whether a text holds the word for functions as the types of syntax nodes spell it. -/
def namesFunction (s : String) : Bool :=
  Text.occursIn "Function".toList s.toList || Text.occursIn "function".toList s.toList

/-- Whether a type name is that of functions; case does not matter. -/
def isFunctionType (name : String) : Bool :=
  name.toList.map Char.toLower == "function".toList

/-- Whether a doclet is shown with a signature. -/
def isNeeded (d : Doclet) : Bool :=
  match d.kind with
  | .function | .classDecl => true
  | .typedef => d.typeNames.any isFunctionType
  | .namespaceDecl =>
      match d.origin.bind (·.code) |>.bind (·.nodeType) with
      | some nodeType => namesFunction nodeType
      | none => false
  | _ => false

/-- The badge for what is said about being null. -/
def nullabilityBadges : Option Bool → List String
  | some true => ["nullable"]
  | some false => ["non-null"]
  | none => []

/-- The badges of a parameter or result. -/
def badges (p : Param) : List String :=
  (if p.optional then ["opt"] else []) ++ nullabilityBadges p.nullable

/-- A parameter as it is shown.  A variadic one stands for any number of arguments. -/
structure ParamEntry where
  name : String
  variadic : Bool
  badges : List String
  deriving DecidableEq, Repr

namespace ParamEntry

/-- The entry of a parameter.  Parameters without a name and nested properties have none. -/
def of? (p : Param) : Option ParamEntry :=
  match p.name with
  | some name =>
      if name == "" || name.toList.contains '.' then none
      else some ⟨name, p.variadic, Signature.badges p⟩
  | none => none

/-- The entry as HTML. -/
def html (e : ParamEntry) : String :=
  (if e.variadic then "&hellip;" else "") ++ e.name ++
    if e.badges.isEmpty then ""
    else "<span class=\"signature-attributes\">" ++ ", ".intercalate e.badges ++ "</span>"

/-- The entry as plain text. -/
def plain (e : ParamEntry) : String :=
  (if e.variadic then "..." else "") ++ e.name ++
    if e.badges.isEmpty then "" else "[" ++ ", ".intercalate e.badges ++ "]"

end ParamEntry

/-- The entries of a parameter list. -/
def entries (params : List Param) : List ParamEntry :=
  params.filterMap ParamEntry.of?

/-- A parameter list as plain text. -/
def plainParams (params : List Param) : String :=
  ", ".intercalate ((entries params).map ParamEntry.plain)

/-- The references to the types of the given names. -/
def typeReferences (r : Registry) (names : List String) : List Reference :=
  names.map fun name => .ofTarget r name (some (Html.text name))

/-- Types side by side. -/
def alternatives (refs : List Reference) : String :=
  "|".intercalate (refs.map Reference.html)

/-- Attributes in parentheses, with a space after them. -/
def parenthesized (attributes : List String) : String :=
  if attributes.isEmpty then ""
  else Html.text ("(" ++ ", ".intercalate attributes ++ ") ")

/-- Text set like the types of a signature. -/
def typeSpan (content : String) : String :=
  "<span class=\"type-signature\">" ++ content ++ "</span>"

/-- The signature so far. -/
def current (d : Doclet) : String :=
  d.signature.getD ""

/-- Appends the parameters. -/
def addParams (d : Doclet) : Doclet :=
  { d with signature := some (current d ++ "(" ++
      ", ".intercalate ((entries d.params).map ParamEntry.html) ++ ")") }

/-- The results of a doclet; what it yields comes before what it returns. -/
def results (d : Doclet) : List Param :=
  if d.yields.isEmpty then d.returns else d.yields

/-- The badges of all results, each once. -/
def resultBadges (results : List Param) : List String :=
  (results.flatMap badges).eraseDups

/-- The references to the types of all results. -/
def resultReferences (r : Registry) (d : Doclet) : List Reference :=
  (results d).flatMap fun p => typeReferences r (typeNames p.type)

/-- The arrow with the types of the results, if there are any. -/
def arrow (badges : List String) (refs : List Reference) : String :=
  if refs.isEmpty then ""
  else " &rarr; " ++ parenthesized badges ++ "\x7b" ++ alternatives refs ++ "\x7d"

/-- Wraps the signature and appends the results. -/
def addReturns (r : Registry) (d : Doclet) : Doclet :=
  { d with signature := some ("<span class=\"signature\">" ++ current d ++ "</span>" ++
      typeSpan (arrow (resultBadges (results d)) (resultReferences r d))) }

/-- The references to the declared types of a doclet. -/
def declaredReferences (r : Registry) (d : Doclet) : List Reference :=
  typeReferences r d.typeNames

/-- Appends the declared type. -/
def addTypes (r : Registry) (d : Doclet) : Doclet :=
  let refs := declaredReferences r d
  { d with signature := some (current d ++
      typeSpan (if refs.isEmpty then "" else " :" ++ alternatives refs)) }

/-- Whether the scope of a doclet is shown. -/
def showsScope (d : Doclet) : Bool :=
  d.kind == .function || d.kind == .member || d.kind == .constant

/-- The scope as an attribute; symbols of instances and global symbols are the rule. -/
def scopeAttributes (d : Doclet) : List String :=
  match d.scope with
  | some .instanceMember | some .global | none => []
  | some scope => if showsScope d then [scope.name] else []

/-- Who may use a symbol, unless everybody may. -/
def accessAttributes (d : Doclet) : List String :=
  match d.access with
  | some access => if access == "public" then [] else [access]
  | none => []

/-- The attributes of a doclet, in the order in which they are shown. -/
def attributes (d : Doclet) : List String :=
  (if d.isAsync then ["async"] else []) ++
  (if d.isGenerator then ["generator"] else []) ++
  (if d.isAbstract then ["abstract"] else []) ++
  accessAttributes d ++
  scopeAttributes d ++
  (if d.isReadonly && d.kind == .member then ["readonly"] else []) ++
  (if d.kind == .constant then ["constant"] else []) ++
  nullabilityBadges d.nullable

/-- Sets the attributes for display. -/
def addAttributes (d : Doclet) : Doclet :=
  { d with attribs := some (typeSpan (parenthesized (attributes d))) }

/-- What is to be said about references that were met in the given context. -/
def warnings (context : String) (refs : List Reference) : List Warning :=
  refs.flatMap (Reference.warnings context)

end Signature
end DocLinks
