import DocLinks.Json.Writer
import DocLinks.Publication

/-!
# The document of a publication

What is handed on to whoever makes the pages: the doclets, the pages to be generated and the
source files that are listed.

**Results.**  `length_fields_page`: a page is written with its long name if it has one.
-/

namespace DocLinks

namespace Page

/-- The fields of a page; a long name that is missing is left out. -/
def fields (p : Page) : List (String × Json) :=
  [("title", .string p.title), ("filename", .string p.filename)] ++
    p.longname.toList.map fun longname => ("longname", .string longname)

/-- A page as an object. -/
def toJson (p : Page) : Json := .object p.fields

theorem length_fields_page (p : Page) :
    p.fields.length = if p.longname.isSome then 3 else 2 := by
  cases h : p.longname <;> simp [fields, h]

end Page

namespace SourceFile

/-- A source file as an object. -/
def toJson (f : SourceFile) : Json :=
  .object [("path", .string f.path), ("shortpath", .string f.shortpath),
    ("filename", .string f.filename)]

end SourceFile

namespace Publication

/-- The document of a publication. -/
def document (p : Publication) : Json :=
  .object [("doclets", .array (p.doclets.map Doclet.form.write)),
    ("pages", .array (p.pages.map Page.toJson)),
    ("sourceFiles", .array (p.sourceFiles.map SourceFile.toJson))]

end Publication

end DocLinks
