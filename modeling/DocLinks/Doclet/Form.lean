import DocLinks.Doclet.Basic
import DocLinks.Json.Form

/-!
# The JSON form of doclets

Doclets are read from an array of objects and written as objects whose fields stand in a
fixed order.  Flags that are not set, empty lists and missing values are left out; unknown
fields are kept and written last.

Authors and references may be given as one text or a list of texts, and an example as its
code or as an object.  Such a field is read to its end before its form is looked at.
-/

namespace DocLinks

open Json

/-- Names of types; other fields are kept. -/
def TypeSpec.record : Record TypeSpec :=
  .keeping [.always "names" Form.text.list (·.names) fun t v => { t with names := v }]
    {} (·.extra) fun t v => { t with extra := v }

/-- Parameters, results, properties and exceptions. -/
def Param.record : Record Param :=
  .keeping
    [.optional "name" .text (·.name) fun p v => { p with name := v },
     .optional "type" TypeSpec.record.form (·.type) fun p v => { p with type := v },
     .optional "description" .text (·.description) fun p v => { p with description := v },
     .flag "optional" (·.optional) fun p v => { p with optional := v },
     .optional "nullable" .flag (·.nullable) fun p v => { p with nullable := v },
     .flag "variable" (·.variadic) fun p v => { p with variadic := v }]
    {} (·.extra) fun p v => { p with extra := v }

/-- An example as an object; other fields are passed over. -/
def Example.record : Record Example :=
  .passing
    [.always "caption" .text (·.caption) fun e v => { e with caption := v },
     .mandatory "code" .text (·.code) fun e v => { e with code := v }]
    { code := "" } false

/-- An example as its code or as an object. -/
def Example.form : Form Example where
  read allowance d := do
    let _ ← d.value allowance
    match d with
    | .string code => return { code }
    | d =>
        match Example.record.read allowance d with
        | .ok e => return e
        | .error _ => throw .mismatch
  write := Example.record.form.write

/-- One text, a list of texts, or null for none. -/
def oneOrMany : Form (List String) where
  read allowance d := do
    let _ ← d.value allowance
    match d with
    | .null => return []
    | .string s => return [s]
    | d =>
        match Form.text.list.read allowance d with
        | .ok texts => return texts
        | .error _ => throw .mismatch
  write := .strings

/-- The construct that was documented. -/
def CodeMeta.record : Record CodeMeta :=
  .keeping [.optional "type" .text (·.nodeType) fun c v => { c with nodeType := v }]
    {} (·.extra) fun c v => { c with extra := v }

/-- One more than the largest line number. -/
def lineLimit : Nat := Nat.pow 2 32

/-- Where a doclet comes from. -/
def Meta.record : Record Meta :=
  .keeping
    [.optional "path" .text (·.path) fun m v => { m with path := v },
     .optional "filename" .text (·.filename) fun m v => { m with filename := v },
     .optional "lineno" (.natBelow lineLimit) (·.lineno) fun m v => { m with lineno := v },
     .optional "code" CodeMeta.record.form (·.code) fun m v => { m with code := v },
     .optional "shortpath" .text (·.shortpath) fun m v => { m with shortpath := v }]
    {} (·.extra) fun m v => { m with extra := v }

/-- The name of a kind. -/
def Kind.form : Form Kind := Form.text.map .ofName Kind.name

/-- The name of a scope. -/
def Scope.form : Form Scope := Form.text.map .ofName Scope.name

namespace Doclet

/-- A doclet before any field has been read. -/
def blank : Doclet := { kind := .other "" }

/-- The fields of a doclet, given the form of the doclets inside it. -/
def fields (inner : Form Doclet) : List (RecordField Doclet) :=
  [.always "longname" .text (·.longname) fun d v => { d with longname := v },
   .optional "name" .text (·.name) fun d v => { d with name := v },
   .mandatory "kind" Kind.form (·.kind) fun d v => { d with kind := v },
   .optional "memberof" .text (·.memberof) fun d v => { d with memberof := v },
   .optional "scope" Scope.form (·.scope) fun d v => { d with scope := v },
   .optional "variation" .text (·.variation) fun d v => { d with variation := v },
   .optional "access" .text (·.access) fun d v => { d with access := v },
   .flag "async" (·.isAsync) fun d v => { d with isAsync := v },
   .flag "generator" (·.isGenerator) fun d v => { d with isGenerator := v },
   .flag "virtual" (·.isAbstract) fun d v => { d with isAbstract := v },
   .flag "readonly" (·.isReadonly) fun d v => { d with isReadonly := v },
   .optional "nullable" .flag (·.nullable) fun d v => { d with nullable := v },
   .flag "undocumented" (·.isUndocumented) fun d v => { d with isUndocumented := v },
   .flag "ignore" (·.isIgnored) fun d v => { d with isIgnored := v },
   .optional "description" .text (·.description) fun d v => { d with description := v },
   .optional "classdesc" .text (·.classdesc) fun d v => { d with classdesc := v },
   .optional "summary" .text (·.summary) fun d v => { d with summary := v },
   .of "author" oneOrMany (·.author) (fun d v => { d with author := v }) List.isEmpty,
   .of "see" oneOrMany (·.see) (fun d v => { d with see := v }) List.isEmpty,
   .optional "type" TypeSpec.record.form (·.type) fun d v => { d with type := v },
   .list "params" Param.record.form (·.params) fun d v => { d with params := v },
   .list "returns" Param.record.form (·.returns) fun d v => { d with returns := v },
   .list "yields" Param.record.form (·.yields) fun d v => { d with yields := v },
   .list "properties" Param.record.form (·.properties) fun d v => { d with properties := v },
   .list "exceptions" Param.record.form (·.exceptions) fun d v => { d with exceptions := v },
   .list "augments" .text (·.augments) fun d v => { d with augments := v },
   .list "examples" Example.form (·.examples) fun d v => { d with examples := v },
   .optional "meta" Meta.record.form (·.origin) fun d v => { d with origin := v },
   .optional "signature" .text (·.signature) fun d v => { d with signature := v },
   .optional "attribs" .text (·.attribs) fun d v => { d with attribs := v },
   .optional "id" .text (·.id) fun d v => { d with id := v },
   .list "ancestors" .text (·.ancestors) fun d v => { d with ancestors := v },
   .list "modules" inner (·.modules) fun d v => { d with modules := v }]

/-- The record of a doclet, given the form of the doclets inside it. -/
def record (inner : Form Doclet) : Record Doclet :=
  .keeping (fields inner) blank (·.extra) fun d v => { d with extra := v }

/-- The form of doclets that hold others up to the given depth only.  Deeper ones are
refused, as their arrays and objects would exceed any allowance up to that depth. -/
def formTo : Nat → Form Doclet
  | 0 => { read := fun _ d => .error d.refusal, write := fun _ => .null }
  | depth + 1 => (record (formTo depth)).form

/-- How deep doclets are nested in a doclet. -/
def depth (d : Doclet) : Nat :=
  1 + (d.modules.attach.map fun m => m.1.depth).foldr max 0
  termination_by d
  decreasing_by
    obtain ⟨m, hm⟩ := m
    have := List.sizeOf_lt_of_mem hm
    cases d
    simp_all
    omega

/-- The form of doclets.  Every doclet opens at least one object, so no deeper one is
readable. -/
def form : Form Doclet where
  read allowance := (formTo (allowance + 1)).read allowance
  write d := (formTo d.depth).write d

end Doclet

end DocLinks
