import DocLinks.Html
import DocLinks.Registry
import DocLinks.Text.Scan

/-!
# References

A long name is turned into a reference by looking it up in the registry, and a link tag in a
text is replaced by the reference to its target.  A target that nobody knows is shown as
plain text; it is worth a warning, but never an error.

**Input.**  The tags are `@link target`, `@link target text`, `@link target|text`,
`@linkcode …` and `@linkplain …` in braces; a caption in square brackets may precede them.

**Results.**  `Reference.warnings_eq_nil_iff`: only unknown targets are warned about.
`Reference.warnings_ofTarget`: which names these are.
-/

namespace DocLinks

/-- What the reader of the log has to know: a link whose target is not registered, and where
it was met, or a short name that several long names share, and how many. -/
inductive Warning where
  | unknownLink (target context : String)
  | ambiguousShortname (shortname : String) (candidates : Nat)
  deriving DecidableEq, Repr

/-- How a long name is shown.  What is unknown is plain text in place of a target that is not
registered. -/
inductive Reference where
  | link (href text : String)
  | plain (text : String)
  | code (text : String)
  | unknown (target text : String)
  deriving DecidableEq, Repr

namespace Reference

/-- Where the reference leads. -/
def href? : Reference → Option String
  | link href _ => some href
  | _ => none

/-- What the reference shows. -/
def text : Reference → String
  | link _ text => text
  | plain text => text
  | code text => text
  | unknown _ text => text

/-- The reference as HTML. -/
def html : Reference → String
  | link href text => Html.anchor href text
  | plain text => text
  | code text => "<code>" ++ text ++ "</code>"
  | unknown _ text => text

/-- What is to be said about a reference that was met in the given context. -/
def warnings (context : String) : Reference → List Warning
  | unknown target _ => [.unknownLink target context]
  | _ => []

theorem warnings_eq_nil_iff (context : String) (r : Reference) :
    r.warnings context = [] ↔ ∀ target text, r ≠ .unknown target text := by
  cases r <;> simp [warnings]

/-- The names of literal values. -/
def literals : List String :=
  ["null", "undefined", "true", "false"]

/-- The long name that a type name stands for: primitive types are documented under their
capital names. -/
def targetName (name : String) : String :=
  match name with
  | "boolean" => "Boolean"
  | "function" => "Function"
  | "number" => "Number"
  | "string" => "String"
  | name => name

/-- What absolute links start with. -/
def absoluteLeads : List (List Char) :=
  ["http://".toList, "https://".toList, "httpss://".toList,
    "ftp://".toList, "ftps://".toList]

/-- Whether a target is an absolute link, so that it needs no registration. -/
def isAbsolute (target : String) : Bool :=
  absoluteLeads.any (·.isPrefixOf target.toList)

/-- The reference to a long name.  The text is shown as it is, and is the name itself if it
is not given. -/
def ofTarget (r : Registry) (name : String) (text? : Option String) : Reference :=
  if name == "any" then .plain name
  else if literals.contains name then .code name
  else
    let target := targetName name
    let text := text?.getD target
    if isAbsolute target then .link target text
    else
      match r.resolve? target with
      | some url => .link url text
      | none => .unknown target text

/-- A name that is looked up in vain: it is neither `any` nor a literal value, and what it is
looked up under is neither an absolute link nor registered. -/
structure IsUnknown (r : Registry) (name : String) : Prop where
  not_any : name ≠ "any"
  not_literal : name ∉ literals
  not_absolute : isAbsolute (targetName name) = false
  not_registered : r.resolve? (targetName name) = none

instance (r : Registry) (name : String) : Decidable (IsUnknown r name) :=
  decidable_of_iff
    (name ≠ "any" ∧ name ∉ literals ∧ isAbsolute (targetName name) = false ∧
      r.resolve? (targetName name) = none)
    ⟨fun ⟨hany, hliteral, habsolute, hnone⟩ => ⟨hany, hliteral, habsolute, hnone⟩,
      fun h => ⟨h.not_any, h.not_literal, h.not_absolute, h.not_registered⟩⟩

/-- There is one warning about a name that is looked up in vain, and none about any other. -/
theorem warnings_ofTarget (r : Registry) (name text context : String) :
    (ofTarget r name (some text)).warnings context =
      if IsUnknown r name then [.unknownLink (targetName name) context] else [] := by
  unfold ofTarget
  split
  · rename_i hany
    exact (if_neg fun h : IsUnknown r name => h.not_any (beq_iff_eq.1 hany)).symm
  · rename_i hany
    split
    · rename_i hliteral
      exact (if_neg fun h : IsUnknown r name =>
        h.not_literal (List.contains_iff_mem.1 hliteral)).symm
    · rename_i hliteral
      dsimp only
      split
      · rename_i habsolute
        exact (if_neg fun h : IsUnknown r name =>
          Bool.eq_false_iff.1 h.not_absolute habsolute).symm
      · rename_i habsolute
        split
        · rename_i url hurl
          exact (if_neg fun h : IsUnknown r name =>
            Option.some_ne_none url (hurl.symm.trans h.not_registered)).symm
        · rename_i hnone
          exact (if_pos ⟨mt beq_iff_eq.2 hany, mt List.contains_iff_mem.2 hliteral,
            Bool.eq_false_iff.2 habsolute, hnone⟩).symm

end Reference

/-- How the text of a link tag is set; `plain` is expressly not as code. -/
inductive TagStyle where
  | default
  | code
  | plain
  deriving DecidableEq, Repr

/-- A link tag in a text: the caption in square brackets before it, the style of its text,
and what follows its name, without the blanks around it. -/
structure LinkTag where
  caption : Option (List Char)
  style : TagStyle
  body : List Char
  deriving DecidableEq, Repr

namespace LinkTag

/-- What follows the opening of a tag. -/
structure Opened where
  style : TagStyle
  rest : List Char

/-- Whether a text starts with a blank. -/
def startsBlank : List Char → Bool
  | c :: _ => Text.isBlank c
  | [] => false

/-- The possible names of a tag, after what they have in common. -/
def styleNames : List (TagStyle × List Char) :=
  [(.code, "code".toList), (.plain, "plain".toList), (.default, [])]

/-- Reads the opening brace and the name of a tag; a blank has to follow. -/
def open? (s : List Char) : Option Opened :=
  match Text.after? "\x7b@link".toList s with
  | some rest =>
      styleNames.findSome? fun (style, name) =>
        match Text.after? name rest with
        | some rest => if startsBlank rest then some ⟨style, rest⟩ else none
        | none => none
  | none => none

/-- Reads a tag without caption, and gives what follows it. -/
def braces? (caption : Option (List Char)) (s : List Char) : Option (LinkTag × List Char) :=
  match open? s with
  | some o =>
      (Text.cutAtFirst (· == '}') (Text.trimStart o.rest)).map fun (body, rest) =>
        (⟨caption, o.style, Text.trimEnd body⟩, rest)
  | none => none

/-- Reads a tag, and gives what follows it. -/
def read? (s : List Char) : Option (LinkTag × List Char) :=
  match s with
  | '[' :: t =>
      match Text.cutAtFirst (· == ']') t with
      | some (caption, rest) => if caption.isEmpty then none else braces? (some caption) rest
      | none => none
  | s => braces? none s

/-- The pattern of link tags. -/
def pattern : Text.Pattern LinkTag := fun _ s =>
  (read? s).map fun (tag, rest) => ⟨tag, s.length - rest.length - 1⟩

/-- The parts of the body of a tag: the target, and the text if there is one. -/
def splitBody (body : List Char) : List Char × Option (List Char) :=
  let cut :=
    match Text.cutAtFirst (· == '|') body with
    | some parts => some parts
    | none => Text.cutAtFirst Text.isBlank body
  match cut with
  | some (target, text) =>
      let text := Text.trim text
      (Text.trim target, if text.isEmpty then none else some text)
  | none => (Text.trim body, none)

/-- The target of a tag. -/
def target (t : LinkTag) : String :=
  String.ofList (splitBody t.body).1

/-- The text of a tag: its caption, or else the text in it, or else its target. -/
def text (t : LinkTag) : String :=
  let (target, inner) := splitBody t.body
  let text := String.ofList (t.caption.getD (inner.getD target))
  if t.style = .code then "<code>" ++ text ++ "</code>" else text

/-- The reference that replaces a tag. -/
def reference (r : Registry) (t : LinkTag) : Reference :=
  .ofTarget r t.target (some t.text)

/-- A text with its tags. -/
def cut (s : String) : List (Text.Piece LinkTag) :=
  pattern.cut s.toList

/-- What a piece of a text is replaced by. -/
def pieceHtml (r : Registry) : Text.Piece LinkTag → String
  | .gap s => String.ofList s
  | .hit t _ => (t.reference r).html

/-- What is to be said about a piece of a text. -/
def pieceWarnings (r : Registry) (context : String) : Text.Piece LinkTag → List Warning
  | .gap _ => []
  | .hit t _ => (t.reference r).warnings context

/-- A text with all tags replaced. -/
def resolveAll (r : Registry) (s : String) : String :=
  String.join ((cut s).map (pieceHtml r))

/-- What is to be said about the tags of a text. -/
def warnings (r : Registry) (context s : String) : List Warning :=
  (cut s).flatMap (pieceWarnings r context)

end LinkTag

end DocLinks
