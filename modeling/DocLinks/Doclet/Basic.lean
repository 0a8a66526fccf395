import DocLinks.Doclet.Kind
import DocLinks.Json.Basic
import DocLinks.Text.Split

/-!
# Doclets

A doclet is the record of one documented symbol.  The fields that links, signatures and pages
depend on are modelled; everything else is carried along as unknown fields.

A set of doclets is a list.  Doclets that are never published are pruned from it, and the
rest is sorted by long name, doclets of one long name keeping their order.

**Results.**  `mem_prune_iff`: what is published.
-/

namespace DocLinks

/-- The unknown fields of a record, sorted by name. -/
abbrev Extra := List (String × Json)

/-- A declared type, by the names of its alternatives. -/
structure TypeSpec where
  names : List String := []
  extra : Extra := []
  deriving Inhabited

/-- A parameter, result, property or exception.  Nested properties have dotted names, and a
variadic parameter stands for any number of arguments. -/
structure Param where
  name : Option String := none
  type : Option TypeSpec := none
  description : Option String := none
  optional : Bool := false
  nullable : Option Bool := none
  variadic : Bool := false
  extra : Extra := []
  deriving Inhabited

/-- The names of the alternatives of a type that may be missing. -/
def typeNames (type : Option TypeSpec) : List String :=
  match type with
  | some t => t.names
  | none => []

/-- A code example, with a caption that may be empty. -/
structure Example where
  caption : String := ""
  code : String
  deriving Inhabited, DecidableEq

/-- What is known about the construct that was documented: the type of its syntax node. -/
structure CodeMeta where
  nodeType : Option String := none
  extra : Extra := []
  deriving Inhabited

/-- Where a doclet comes from: the directory, the name and the line of the source file, and
the construct that was documented.  The short path is the source path without the directories
that all sources share. -/
structure Meta where
  path : Option String := none
  filename : Option String := none
  lineno : Option Nat := none
  code : Option CodeMeta := none
  shortpath : Option String := none
  extra : Extra := []
  deriving Inhabited

/-- The record of one documented symbol.  Its long name identifies it and is empty for
anonymous entries; `name` is the last part of it, `memberof` the long name of the parent, and
`variation` tells it from symbols of the same name.  Signature, attributes, the fragment `id`
of its link and the links to its `ancestors`, outermost first, are made for display.  The
`modules` of a module are the classes and functions that are its value. -/
structure Doclet where
  longname : String := ""
  name : Option String := none
  kind : Kind
  memberof : Option String := none
  scope : Option Scope := none
  variation : Option String := none
  access : Option String := none
  isAsync : Bool := false
  isGenerator : Bool := false
  isAbstract : Bool := false
  isReadonly : Bool := false
  nullable : Option Bool := none
  isUndocumented : Bool := false
  isIgnored : Bool := false
  description : Option String := none
  classdesc : Option String := none
  summary : Option String := none
  author : List String := []
  see : List String := []
  type : Option TypeSpec := none
  params : List Param := []
  returns : List Param := []
  yields : List Param := []
  properties : List Param := []
  exceptions : List Param := []
  augments : List String := []
  examples : List Example := []
  origin : Option Meta := none
  signature : Option String := none
  attribs : Option String := none
  id : Option String := none
  ancestors : List String := []
  modules : List Doclet := []
  extra : Extra := []
  deriving Inhabited

namespace Doclet

/-- The characters between the parts of a long name. -/
def isPunctuation (c : Char) : Bool :=
  c == '.' || c == '#' || c == '~'

/-- A doclet of which only the long name and the kind are known; its name is the last part of
the long name. -/
def ofLongname (longname : String) (kind : Kind) : Doclet :=
  { longname := longname
    name := some (String.ofList (Text.afterLast isPunctuation longname.toList))
    kind := kind }

/-- The name, or the long name if there is none. -/
def displayName (d : Doclet) : String :=
  d.name.getD d.longname

/-- Whether a name starts like the long name of a module. -/
def startsLikeModule (name : String) : Bool :=
  "module:".toList.isPrefixOf name.toList

/-- Whether the doclet is no module, but stands for the value that a module exports. -/
def isModuleExports (d : Doclet) : Bool :=
  d.name == some d.longname && startsLikeModule d.longname && d.kind != .module

/-- The type names of a doclet. -/
def typeNames (d : Doclet) : List String :=
  DocLinks.typeNames d.type

/-- The separators of directories. -/
def isSlash (c : Char) : Bool :=
  c == '/' || c == '\\'

/-- The directory without the slashes at its end. -/
def trimSlashes (dir : String) : String :=
  String.ofList (dir.toList.reverse.dropWhile isSlash).reverse

/-- The path of the source file.  A directory that is empty or called `null` is none. -/
def sourcePath (d : Doclet) : Option String := do
  let origin ← d.origin
  let filename ← origin.filename
  match origin.path with
  | some dir =>
      if dir == "" || dir == "null" then return filename
      else return trimSlashes dir ++ "/" ++ filename
  | none => return filename

/-- The parent of members of scopes without a name. -/
def anonymousScope : String := "<anonymous>"

/-- Whether a doclet is published. -/
def isPublished (d : Doclet) : Bool :=
  !d.isUndocumented && !d.isIgnored && d.memberof != some anonymousScope

/-- The doclets that are published. -/
def prune (ds : List Doclet) : List Doclet :=
  ds.filter isPublished

theorem mem_prune_iff {d : Doclet} {ds : List Doclet} :
    d ∈ prune ds ↔ d ∈ ds ∧ d.isPublished = true :=
  List.mem_filter

/-- The doclets in the order of their long names; those of one long name keep their order. -/
def sortByLongname (ds : List Doclet) : List Doclet :=
  ds.mergeSort fun a b => !(b.longname < a.longname)

/-- The first doclet with the given long name. -/
def find? (ds : List Doclet) (longname : String) : Option Doclet :=
  ds.find? (·.longname == longname)

end Doclet

end DocLinks
