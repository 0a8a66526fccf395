/-!
# Escaping for HTML

Running text and attribute values are escaped differently: running text keeps `>` and quotes.

**Results.**  `escapeAttribute_no_quote`: an escaped attribute value cannot end its
attribute.
-/

namespace DocLinks
namespace Html

/-- A character of running text. -/
def escapeTextChar (c : Char) : List Char :=
  match c with
  | '&' => ['&', 'a', 'm', 'p', ';']
  | '<' => ['&', 'l', 't', ';']
  | c => [c]

/-- Running text. -/
def escapeText (s : List Char) : List Char :=
  s.flatMap escapeTextChar

/-- A character of an attribute value. -/
def escapeAttributeChar (c : Char) : List Char :=
  match c with
  | '&' => ['&', 'a', 'm', 'p', ';']
  | '<' => ['&', 'l', 't', ';']
  | '>' => ['&', 'g', 't', ';']
  | '"' => ['&', 'q', 'u', 'o', 't', ';']
  | c => [c]

/-- A value between the double quotes of an attribute. -/
def escapeAttribute (s : List Char) : List Char :=
  s.flatMap escapeAttributeChar

theorem escapeAttribute_no_quote (s : List Char) : '"' ∉ escapeAttribute s := by
  simp only [escapeAttribute, List.mem_flatMap, not_exists, not_and]
  intro c _
  unfold escapeAttributeChar
  split <;> simp_all [eq_comm]

/-- Running text, as a string. -/
def text (s : String) : String :=
  String.ofList (escapeText s.toList)

/-- A value between the double quotes of an attribute, as a string. -/
def attributeValue (s : String) : String :=
  String.ofList (escapeAttribute s.toList)

/-- An anchor; its content is inserted as it is. -/
def anchor (href content : String) : String :=
  "<a href=\"" ++ attributeValue href ++ "\">" ++ content ++ "</a>"

end Html
end DocLinks
