import DocLinks.Json.Basic

/-!
# Navigation items

A row of the sidebar with the rows below it, as it is given to other programs.

**Results.**  `toJsonAll_length`: no item is left out.
-/

namespace DocLinks

/-- A row of the sidebar with the rows below it: what it shows, where it leads, whether it is
a heading, and whether it is highlighted. -/
inductive NavItem where
  | mk (html : String) (href : Option String) (isHeading isOn : Bool)
      (children : List NavItem)
  deriving Inhabited

namespace NavItem

/-- A field that is left out when it is not set. -/
def flagField (key : String) (b : Bool) : List (String × Json) :=
  if b then [(key, .bool true)] else []

mutual

/-- An item as an object; missing links, flags that are not set and empty lists are left
out. -/
def toJson : NavItem → Json
  | mk html href isHeading isOn children =>
      let items := toJsonAll children
      .object ([("html", .string html)] ++
        href.toList.map (fun href => ("href", .string href)) ++
        flagField "heading" isHeading ++ flagField "isOn" isOn ++
        if items.isEmpty then [] else [("children", .array items)])

/-- Items as objects. -/
def toJsonAll : List NavItem → List Json
  | [] => []
  | item :: items => toJson item :: toJsonAll items

end

theorem toJsonAll_length (items : List NavItem) :
    (toJsonAll items).length = items.length := by
  induction items with
  | nil => simp [toJsonAll]
  | cons item items ih => simp [toJsonAll, ih]

end NavItem

end DocLinks
