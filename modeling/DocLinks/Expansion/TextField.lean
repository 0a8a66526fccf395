import DocLinks.Doclet.Basic
import DocLinks.Expansion.Segment

/-!
# The texts of a doclet

The fields of a doclet that hold texts, and the expansion of all of them.  Authors and
references are usually names and citations, so they are expanded only if they contain a
marker already.

**Results.**  `name_injective`: fields are told apart by their names.
-/

namespace DocLinks

/-- How the texts of a field are arranged; each record of a list has a description. -/
inductive FieldShape where
  | text
  | textList
  | recordList
  deriving DecidableEq, Repr

/-- A field that holds texts. -/
inductive TextField where
  | author
  | classdesc
  | description
  | exceptions
  | params
  | properties
  | returns
  | see
  | summary
  deriving DecidableEq, Repr

namespace TextField

/-- All fields that hold texts. -/
def all : List TextField :=
  [author, classdesc, description, exceptions, params, properties, returns, see, summary]

/-- The name of a field. -/
def name : TextField → String
  | author => "author"
  | classdesc => "classdesc"
  | description => "description"
  | exceptions => "exceptions"
  | params => "params"
  | properties => "properties"
  | returns => "returns"
  | see => "see"
  | summary => "summary"

/-- How the texts of a field are arranged. -/
def shape : TextField → FieldShape
  | classdesc | description | summary => .text
  | author | see => .textList
  | exceptions | params | properties | returns => .recordList

theorem name_injective {f g : TextField} (h : f.name = g.name) : f = g := by
  cases f <;> cases g <;> simp_all [name]

/-- Whether the texts of a field are only expanded if they contain a marker. -/
def needsMarker : TextField → Bool
  | author | see => true
  | _ => false

/-- Applies a function to the descriptions of records. -/
def mapDescriptions (f : String → String) (records : List Param) : List Param :=
  records.map fun p => { p with description := p.description.map f }

/-- Applies a function to the texts of a field. -/
def mapTexts (f : String → String) (d : Doclet) : TextField → Doclet
  | author => { d with author := d.author.map f }
  | classdesc => { d with classdesc := d.classdesc.map f }
  | description => { d with description := d.description.map f }
  | exceptions => { d with exceptions := mapDescriptions f d.exceptions }
  | params => { d with params := mapDescriptions f d.params }
  | properties => { d with properties := mapDescriptions f d.properties }
  | returns => { d with returns := mapDescriptions f d.returns }
  | see => { d with see := d.see.map f }
  | summary => { d with summary := d.summary.map f }

end TextField

namespace Expander

/-- The expansion of a text in a field. -/
def expandIn (e : Expander) (longname : String) (field : TextField) (s : String) : String :=
  if field.needsMarker && !Text.occursIn "\x7b@link".toList s.toList then s
  else e.expand longname s

/-- The long name of something that is extended: after a colon or a tilde it is a name in the
module of the symbol at hand. -/
def qualify (longname parent : String) : String :=
  match parent.toList with
  | c :: rest =>
      if c = ':' || c = '~' then
        String.ofList (Text.beforeFirst (· == '~') longname.toList ++ '~' :: rest)
      else parent
  | [] => parent

/-- The expansion of all texts of a doclet. -/
def expandDoclet (e : Expander) (d : Doclet) : Doclet :=
  TextField.all.foldl (fun d field => field.mapTexts (e.expandIn d.longname field) d)
    { d with augments := d.augments.map (qualify d.longname) }

end Expander

end DocLinks
