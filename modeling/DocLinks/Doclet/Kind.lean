/-!
# Kinds and scopes of documented symbols

What a symbol is, and how it hangs on its parent.  Both are open lists: a word without rules
of its own is kept as it is.

**Results.**  `Kind.name_ofName` and `Scope.name_ofName`: a kind or scope keeps the name it
was read from.
-/

namespace DocLinks

/-- The kind of a documented symbol; `other` is one without rules of its own. -/
inductive Kind where
  | classDecl
  | constant
  | event
  | external
  | file
  | function
  | interface
  | member
  | mixin
  | module
  | namespaceDecl
  | package
  | typedef
  | other (name : String)
  deriving DecidableEq, Repr, Inhabited

namespace Kind

/-- The name of a kind. -/
def name : Kind → String
  | .classDecl => "class"
  | .constant => "constant"
  | .event => "event"
  | .external => "external"
  | .file => "file"
  | .function => "function"
  | .interface => "interface"
  | .member => "member"
  | .mixin => "mixin"
  | .module => "module"
  | .namespaceDecl => "namespace"
  | .package => "package"
  | .typedef => "typedef"
  | .other name => name

/-- The kind of the given name. -/
def ofName (name : String) : Kind :=
  match name with
  | "class" => .classDecl
  | "constant" => .constant
  | "event" => .event
  | "external" => .external
  | "file" => .file
  | "function" => .function
  | "interface" => .interface
  | "member" => .member
  | "mixin" => .mixin
  | "module" => .module
  | "namespace" => .namespaceDecl
  | "package" => .package
  | "typedef" => .typedef
  | name => .other name

/-- Whether symbols of this kind have a page of their own. -/
def isContainer : Kind → Bool
  | .classDecl | .module | .external | .namespaceDecl | .mixin | .interface => true
  | _ => false

/-- What precedes the name of such a symbol in a fragment. -/
def fragmentLead : Kind → String
  | .event => "event:"
  | .external => "external:"
  | .module => "module:"
  | _ => ""

theorem name_ofName (name : String) : (ofName name).name = name := by
  unfold ofName
  split <;> rfl

end Kind

/-- How a symbol hangs on its parent; `other` is a scope without rules of its own. -/
inductive Scope where
  | global
  | staticMember
  | instanceMember
  | innerMember
  | other (name : String)
  deriving DecidableEq, Repr, Inhabited

namespace Scope

/-- The name of a scope. -/
def name : Scope → String
  | .global => "global"
  | .staticMember => "static"
  | .instanceMember => "instance"
  | .innerMember => "inner"
  | .other name => name

/-- The scope of the given name. -/
def ofName (name : String) : Scope :=
  match name with
  | "global" => .global
  | "static" => .staticMember
  | "instance" => .instanceMember
  | "inner" => .innerMember
  | name => .other name

/-- What stands between the long name of the parent and the name of the symbol. -/
def punctuation : Scope → String
  | .staticMember => "."
  | .instanceMember => "#"
  | .innerMember => "~"
  | .global | .other _ => ""

theorem name_ofName (name : String) : (ofName name).name = name := by
  unfold ofName
  split <;> rfl

end Scope

end DocLinks
