import DocLinks.Json.Draft

/-!
# Forms of JSON values

A form says how values of a type are read from a draft and how they are written.  Reading
follows the order of the text, so of several problems the first one in the text is reported.

The allowance counts how many arrays and objects may still be opened inside each other; one
more is refused as malformed, whatever it contains.

**Forms.**  Texts, flags, optional values, lists, arbitrary values, and records, whose fields
are given one by one.  A record may keep the fields it does not know or pass over them.
-/

namespace DocLinks
namespace Json

/-- How many arrays and objects may be open inside each other. -/
def maxNesting : Nat := 127

namespace Draft

/-- What is wrong with a node that is not of the wanted form. -/
def refusal : Draft → Problem
  | .broken p => p
  | .unreadable => .malformed
  | .number n => if n.value?.isNone then .malformed else .mismatch
  | _ => .mismatch

mutual

/-- The value of a node, whatever its form.  Fields come sorted by name, and of two fields
with one name the later one counts. -/
def value (allowance : Nat) : Draft → Except Problem Json
  | .null => .ok .null
  | .bool b => .ok (.bool b)
  | .number n =>
      match n.value? with
      | some v => .ok (.number v)
      | none => .error .malformed
  | .string s => .ok (.string s)
  | .unreadable => .error .malformed
  | .broken p => .error p
  | .array items =>
      match allowance with
      | 0 => .error .malformed
      | a + 1 => (values a items).map .array
  | .object fields =>
      match allowance with
      | 0 => .error .malformed
      | a + 1 => (fieldValues a [] fields).map .object

/-- The values of the items of an array. -/
def values (allowance : Nat) : List Draft → Except Problem (List Json)
  | [] => .ok []
  | d :: ds => do
      let v ← value allowance d
      let vs ← values allowance ds
      return v :: vs

/-- The values of the fields of an object, added to those read before. -/
def fieldValues (allowance : Nat) (known : List (String × Json)) :
    List (Draft × Draft) → Except Problem (List (String × Json))
  | [] => .ok known
  | (.string key, d) :: rest => do
      let v ← value allowance d
      fieldValues allowance (insertField key v known) rest
  | (name, _) :: _ => .error name.refusal

end

mutual

/-- Passes over a node: it only has to be read to its end. -/
def skip : Draft → Except Problem Unit
  | .broken p => .error p
  | .array items => skipAll items
  | .object fields => skipFields fields
  | _ => .ok ()

/-- Passes over the items of an array. -/
def skipAll : List Draft → Except Problem Unit
  | [] => .ok ()
  | d :: ds => do
      skip d
      skipAll ds

/-- Passes over the fields of an object. -/
def skipFields : List (Draft × Draft) → Except Problem Unit
  | [] => .ok ()
  | (name, d) :: rest => do
      skip name
      skip d
      skipFields rest

end

end Draft

/-- How values of a type are read, given how many arrays and objects may still be opened, and
how they are written. -/
structure Form (α : Type) where
  read : (allowance : Nat) → Draft → Except Problem α
  write : α → Json

namespace Form

/-- A text. -/
def text : Form String where
  read _ d :=
    match d with
    | .string s => .ok s
    | d => .error d.refusal
  write := .string

/-- A truth value. -/
def flag : Form Bool where
  read _ d :=
    match d with
    | .bool b => .ok b
    | d => .error d.refusal
  write := .bool

/-- An integer from zero up to, but not including, a bound. -/
def natBelow (bound : Nat) : Form Nat where
  read _ d :=
    match d with
    | .number n =>
        match n.value? with
        | some (.integer i) =>
            if 0 ≤ i && i < bound then .ok i.toNat else .error .mismatch
        | some (.float _) => .error .mismatch
        | none => .error .malformed
    | d => .error d.refusal
  write n := .nat n

/-- An arbitrary value. -/
def any : Form Json where
  read := Draft.value
  write := id

/-- A value that may be null. -/
def option {α : Type} (f : Form α) : Form (Option α) where
  read allowance d :=
    match d with
    | .null => .ok none
    | d => (f.read allowance d).map some
  write
    | none => .null
    | some a => f.write a

/-- A list of values of one form. -/
def list {α : Type} (f : Form α) : Form (List α) where
  read allowance d :=
    match d with
    | .array items =>
        match allowance with
        | 0 => .error .malformed
        | a + 1 => items.mapM (f.read a)
    | d => .error d.refusal
  write as := .array (as.map f.write)

/-- A form read through a function and written through another one. -/
def map {α β : Type} (f : Form α) (toβ : α → β) (ofβ : β → α) : Form β where
  read allowance d := (f.read allowance d).map toβ
  write b := f.write (ofβ b)

end Form

/-- One field of a record: its name in the text, whether it must be present, how its value is
read into a record, and how it is written, if it is. -/
structure RecordField (ρ : Type) where
  key : String
  required : Bool
  read : (allowance : Nat) → Draft → ρ → Except Problem ρ
  write : ρ → Option Json

namespace RecordField

/-- A field with a form, a place in the record, and a test for values that are left out. -/
def of {ρ α : Type} (key : String) (f : Form α) (get : ρ → α) (set : ρ → α → ρ)
    (leftOut : α → Bool) : RecordField ρ where
  key := key
  required := false
  read allowance d r := (f.read allowance d).map (set r)
  write r := if leftOut (get r) then none else some (f.write (get r))

/-- A field that must be present and is always written. -/
def mandatory {ρ α : Type} (key : String) (f : Form α) (get : ρ → α) (set : ρ → α → ρ) :
    RecordField ρ :=
  { of key f get set (fun _ => false) with required := true }

/-- A field that may be missing and is always written. -/
def always {ρ α : Type} (key : String) (f : Form α) (get : ρ → α) (set : ρ → α → ρ) :
    RecordField ρ :=
  of key f get set fun _ => false

/-- A field that is null or left out when there is no value. -/
def optional {ρ α : Type} (key : String) (f : Form α) (get : ρ → Option α)
    (set : ρ → Option α → ρ) : RecordField ρ :=
  of key f.option get set Option.isNone

/-- A flag that is left out when it is not set. -/
def flag {ρ : Type} (key : String) (get : ρ → Bool) (set : ρ → Bool → ρ) : RecordField ρ :=
  of key Form.flag get set fun b => !b

/-- A list that is left out when it is empty. -/
def list {ρ α : Type} (key : String) (f : Form α) (get : ρ → List α) (set : ρ → List α → ρ) :
    RecordField ρ :=
  of key f.list get set List.isEmpty

end RecordField

/-- How a record is read and written: the fields in the order in which they are written, the
record before any of them has been read, what happens to a field that is not known, the
unknown fields that are written after the known ones, and whether the values may also be
given in a list, in the order of the fields. -/
structure Record (ρ : Type) where
  fields : List (RecordField ρ)
  blank : ρ
  unknown : (allowance : Nat) → String → Draft → ρ → Except Problem ρ
  extra : ρ → List (String × Json)
  positional : Bool

namespace Record

/-- A record that keeps the fields it does not know. -/
def keeping {ρ : Type} (fields : List (RecordField ρ)) (blank : ρ)
    (extra : ρ → List (String × Json)) (setExtra : ρ → List (String × Json) → ρ) :
    Record ρ where
  fields := fields
  blank := blank
  unknown allowance key d r :=
    (d.value allowance).map fun v => setExtra r (insertField key v (extra r))
  extra := extra
  positional := false

/-- A record that passes over the fields it does not know. -/
def passing {ρ : Type} (fields : List (RecordField ρ)) (blank : ρ) (positional : Bool) :
    Record ρ where
  fields := fields
  blank := blank
  unknown _ _ d r := d.skip.map fun _ => r
  extra _ := []
  positional := positional

variable {ρ : Type} (s : Record ρ)

/-- The field of the given name. -/
def field? (key : String) : Option (RecordField ρ) :=
  s.fields.find? (·.key == key)

/-- Reads the fields of an object one after the other; no known field may come twice. -/
def readFields (allowance : Nat) (seen : List String) (r : ρ) :
    List (Draft × Draft) → Except Problem (List String × ρ)
  | [] => .ok (seen, r)
  | (.string key, d) :: rest =>
      match s.field? key with
      | some f =>
          if seen.contains key then .error .mismatch
          else do
            let r' ← f.read allowance d r
            readFields allowance (key :: seen) r' rest
      | none => do
          let r' ← s.unknown allowance key d r
          readFields allowance seen r' rest
  | (name, _) :: _ => .error name.refusal

/-- Reads the values of a list into the fields in their order. -/
def readItems (allowance : Nat) (r : ρ) :
    List (RecordField ρ) → List Draft → Except Problem ρ
  | fields, [] => if fields.any (·.required) then .error .mismatch else .ok r
  | [], d :: _ => .error (if d matches .broken .cutShort then .cutShort else .malformed)
  | f :: fields, d :: ds => do
      let r' ← f.read allowance d r
      readItems allowance r' fields ds

/-- Reads a record. -/
def read (allowance : Nat) (d : Draft) : Except Problem ρ :=
  match d with
  | .object fields =>
      match allowance with
      | 0 => .error .malformed
      | a + 1 => do
          let (seen, r) ← s.readFields a [] s.blank fields
          if s.fields.all fun f => !f.required || seen.contains f.key then return r
          else throw .mismatch
  | .array items =>
      if s.positional then
        match allowance with
        | 0 => .error .malformed
        | a + 1 => readItems a s.blank s.fields items
      else .error .mismatch
  | d => .error d.refusal

/-- The fields of a record as they are written. -/
def written (r : ρ) : List (String × Json) :=
  (s.fields.filterMap fun f => (f.write r).map fun v => (f.key, v)) ++ s.extra r

/-- The form of a record. -/
def form : Form ρ where
  read := s.read
  write r := .object (s.written r)

end Record

/-- Reads a whole text of the given form. -/
def Form.readText {α : Type} (f : Form α) (s : String) : Except Problem α := do
  let doc := Draft.ofText s.toList
  let a ← f.read maxNesting doc.root
  if doc.hasTrailing then throw .malformed else return a

end Json
end DocLinks
