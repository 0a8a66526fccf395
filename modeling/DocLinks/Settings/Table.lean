import DocLinks.Settings.Basic
import DocLinks.Toml.Table

/-!
# Settings from a table

The settings stand in the table `templates`.  Each of them may be written under one of a few
names, but only under one.  Names that are not known are passed over, and what is missing
keeps its default. Instead of a table there may be an array, which gives the settings in a
fixed order.
-/

namespace DocLinks
namespace Settings

/-- The fields of a table. -/
abbrev TableFields := List (String × Toml.Value)

/-- The value of a setting under any of its names, if it has one; it must not have two. -/
def find? (names : List String) (fs : TableFields) : Option (Option Toml.Value) :=
  match fs.filter fun (key, _) => names.contains key with
  | [] => some none
  | [(_, v)] => some (some v)
  | _ => none

/-- Reads a value, or takes the default if there is none. -/
def readOr {α : Type} (read? : Toml.Value → Option α) (default : α) :
    Option Toml.Value → Option α
  | none => some default
  | some v => read? v

/-- A name that is documented elsewhere, with its link. -/
def link? (field : String × Toml.Value) : Option (String × String) :=
  field.2.text?.map fun link => (field.1, link)

/-- The names that are documented elsewhere, in ascending order. -/
def links? (v : Toml.Value) : Option (List (String × String)) :=
  v.fields?.bind fun fs =>
    (fs.mapM link?).map fun links => links.mergeSort fun a b => decide (a.1 ≤ b.1)

/-- The settings with the given values; those that are missing keep their defaults. -/
def ofValues? (longnames baseUrl mark links : Option Toml.Value) : Option Settings := do
  let defaults : Settings := {}
  return {
    showsLongnames := ← readOr Toml.Value.bool? defaults.showsLongnames longnames
    ticketBaseUrl := ← readOr Toml.Value.text? defaults.ticketBaseUrl baseUrl
    ticketMark := ← readOr Toml.Value.text? defaults.ticketMark mark
    linkMap := ← readOr links? defaults.linkMap links }

/-- The settings in a table. -/
def ofFields? (fs : TableFields) : Option Settings := do
  ofValues? (← find? ["use_longname_in_nav", "useLongnameInNav"] fs)
    (← find? ["phabricator_base_url", "phabricatorBaseUrl", "phabricator"] fs)
    (← find? ["ticket_prefix", "ticketPrefix"] fs)
    (← find? ["link_map", "linkMap"] fs)

/-- The settings in a value. -/
def ofValue? : Toml.Value → Option Settings
  | .array items => ofValues? items[0]? items[1]? items[2]? items[3]?
  | v => v.fields?.bind ofFields?

/-- The settings in the outermost table of a text. -/
def ofTable? (fs : TableFields) : Option Settings :=
  (find? ["templates"] fs).bind fun
    | none => some {}
    | some v => ofValue? v

/-- The settings in a text. -/
def ofText? (s : String) : Option Settings :=
  (Toml.read? s.toList).bind ofTable?

end Settings
end DocLinks
