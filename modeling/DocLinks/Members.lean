import DocLinks.Doclet.Form

/-!
# Symbols by category

The symbols of a documentation grouped as they appear in its navigation, and the values that
modules export attached to the doclets of those modules.

**Results.**
* `longname_ofDoclet_eq_some_iff`: the long name of the symbol of a doclet.
* `kind_attachTo` and `longname_attachTo`: attaching changes no doclet's kind or long name.
* `categorize_attachExports`: so it changes no category.
-/

namespace DocLinks

/-- A symbol in the navigation.  Anonymous entries have no long name. -/
structure Member where
  longname : Option String := none
  name : String
  deriving DecidableEq, Repr, Inhabited

/-- A tutorial and those below it.  Its title may be empty. -/
inductive Tutorial where
  | mk (name title : String) (children : List Tutorial)
  deriving Inhabited

namespace Tutorial

/-- The name of a tutorial. -/
def name : Tutorial → String
  | mk name _ _ => name

/-- The title of a tutorial, which may be empty. -/
def title : Tutorial → String
  | mk _ title _ => title

/-- The tutorials below a tutorial. -/
def children : Tutorial → List Tutorial
  | mk _ _ children => children

/-- The title of a tutorial, or its name if it has none. -/
def displayTitle (t : Tutorial) : String :=
  if t.title == "" then t.name else t.title

mutual

/-- A tutorial and all below it, each before its children. -/
def walk : Tutorial → List Tutorial
  | mk name title children => mk name title children :: walkAll children

/-- Tutorials and all below them. -/
def walkAll : List Tutorial → List Tutorial
  | [] => []
  | t :: ts => walk t ++ walkAll ts

end

open Json in
/-- The record of a tutorial, given the form of those below it. -/
def record (inner : Form Tutorial) : Record Tutorial :=
  .passing
    [.mandatory "name" .text (·.name) fun t v => mk v t.title t.children,
     .always "title" .text (·.title) fun t v => mk t.name v t.children,
     .list "children" inner (·.children) fun t v => mk t.name t.title v]
    (mk "" "" []) true

open Json in
/-- The form of tutorials that have others below them up to the given depth only. -/
def formTo : Nat → Form Tutorial
  | 0 => { read := fun _ d => .error d.refusal, write := fun _ => .null }
  | depth + 1 => (record (formTo depth)).form

mutual

/-- How many levels a tutorial has. -/
def depth : Tutorial → Nat
  | mk _ _ children => 1 + depthAll children

/-- How many levels the deepest of some tutorials has. -/
def depthAll : List Tutorial → Nat
  | [] => 0
  | t :: ts => max (depth t) (depthAll ts)

end

open Json in
/-- The form of tutorials.  A tutorial opens at least one array or object, so no deeper one
is readable. -/
def form : Form Tutorial where
  read allowance := (formTo (allowance + 1)).read allowance
  write t := (formTo t.depth).write t

end Tutorial

/-- The categories of symbols.  Global are the members, functions, constants and type
definitions without a parent; the tutorials are those of the top level. -/
structure Members where
  modules : List Member := []
  externals : List Member := []
  namespaces : List Member := []
  classes : List Member := []
  interfaces : List Member := []
  events : List Member := []
  mixins : List Member := []
  globals : List Member := []
  tutorials : List Tutorial := []
  deriving Inhabited

open Json in
/-- The form of symbols in the navigation. -/
def Member.form : Form Member :=
  (Record.passing
    [.optional "longname" .text (·.longname) fun m v => { m with longname := v },
     .mandatory "name" .text (·.name) fun m v => { m with name := v }]
    { name := "" } true).form

/-- A name without the double quotes around it. -/
def stripQuotes (name : String) : String :=
  let s :=
    match name.toList with
    | '"' :: s => s
    | s => s
  String.ofList (if s.getLast? = some '"' then s.dropLast else s)

/-- The symbol of a doclet. -/
def Member.ofDoclet (d : Doclet) : Member where
  longname := if d.longname == "" then none else some d.longname
  name := if d.kind == .external then stripQuotes d.displayName else d.displayName

theorem Member.longname_ofDoclet_eq_some_iff {d : Doclet} {longname : String} :
    (ofDoclet d).longname = some longname ↔ d.longname = longname ∧ longname ≠ "" := by
  by_cases hd : d.longname = ""
  · simp only [ofDoclet, hd, beq_self_eq_true, if_true]
    constructor
    · intro h
      simp at h
    · rintro ⟨rfl, hne⟩
      exact absurd rfl hne
  · simp only [ofDoclet, beq_iff_eq, hd, if_false, Option.some.injEq]
    constructor
    · rintro rfl
      exact ⟨rfl, hd⟩
    · exact And.left

/-- Whether a doclet is a global symbol. -/
def Doclet.isGlobal (d : Doclet) : Bool :=
  (d.kind == .member || d.kind == .function || d.kind == .constant || d.kind == .typedef) &&
    d.memberof.isNone && !d.isModuleExports

namespace Members

/-- The symbols of the doclets that pass a test, in their order. -/
def select (test : Doclet → Bool) (ds : List Doclet) : List Member :=
  (ds.filter test).map Member.ofDoclet

/-- The symbols of one kind. -/
def ofKind (kind : Kind) (ds : List Doclet) : List Member :=
  select (·.kind == kind) ds

/-- Groups doclets by category. -/
def categorize (ds : List Doclet) (tutorials : List Tutorial) : Members where
  modules := ofKind .module ds
  externals := ofKind .external ds
  namespaces := ofKind .namespaceDecl ds
  classes := ofKind .classDecl ds
  interfaces := ofKind .interface ds
  events := ofKind .event ds
  mixins := ofKind .mixin ds
  globals := select Doclet.isGlobal ds
  tutorials := tutorials

/-- The groups of symbols that have a page of their own, with the words for them. -/
def containers (m : Members) : List (String × List Member) :=
  [("Module", m.modules), ("Class", m.classes), ("Namespace", m.namespaces),
   ("Mixin", m.mixins), ("External", m.externals), ("Interface", m.interfaces)]

end Members

namespace Doclet

/-- Whether a doclet is a class or function that stands for a module. -/
def isExport (d : Doclet) : Bool :=
  startsLikeModule d.longname && (d.kind == .classDecl || d.kind == .function)

/-- Whether an export is shown: classes always are, functions only if something is said. -/
def isShownExport (d : Doclet) : Bool :=
  d.description.isSome || d.kind == .classDecl

/-- An export under the name by which the module is loaded. -/
def asExport (d : Doclet) : Doclet :=
  match d.name.bind fun name => Text.after? "module:".toList name.toList with
  | some name => { d with name := some ("(require(\"" ++ String.ofList name ++ "\"))") }
  | none => d

/-- Attaches to a module the exports of its long name among all doclets, if there are any. -/
def attachTo (all : List Doclet) (d : Doclet) : Doclet :=
  let exports := all.filter fun e => e.isExport && e.longname == d.longname
  if d.kind == .module && !exports.isEmpty then
    { d with modules := (exports.filter isShownExport).map asExport }
  else d

/-- Attaches exports to all modules. -/
def attachExports (ds : List Doclet) : List Doclet :=
  ds.map (attachTo ds)

theorem kind_attachTo (all : List Doclet) (d : Doclet) : (attachTo all d).kind = d.kind := by
  simp only [attachTo]
  split <;> rfl

theorem longname_attachTo (all : List Doclet) (d : Doclet) :
    (attachTo all d).longname = d.longname := by
  simp only [attachTo]
  split <;> rfl

theorem ofDoclet_attachTo (all : List Doclet) (d : Doclet) :
    Member.ofDoclet (attachTo all d) = Member.ofDoclet d := by
  simp only [attachTo]
  split <;> rfl

theorem isGlobal_attachTo (all : List Doclet) (d : Doclet) :
    (attachTo all d).isGlobal = d.isGlobal := by
  simp only [attachTo]
  split <;> rfl

/-- Attaching exports changes no category. -/
theorem categorize_attachExports (ds : List Doclet) (tutorials : List Tutorial) :
    Members.categorize (attachExports ds) tutorials = Members.categorize ds tutorials := by
  have hselect : ∀ {test : Doclet → Bool}, (∀ d, test (attachTo ds d) = test d) →
      Members.select test (attachExports ds) = Members.select test ds := by
    intro test htest
    simp only [Members.select, attachExports, List.filter_map, List.map_map,
      Function.comp_def, htest, ofDoclet_attachTo]
  have hkind : ∀ kind, Members.ofKind kind (attachExports ds) = Members.ofKind kind ds :=
    fun kind => hselect fun d => by rw [kind_attachTo]
  simp only [Members.categorize, hkind, hselect fun d => isGlobal_attachTo ds d]

end Doclet

end DocLinks
