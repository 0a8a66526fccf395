import DocLinks.Json.Number

/-!
# JSON values

Objects keep their fields in the order in which they are written.  Objects of which only the
content matters have their fields sorted by name; `insertField` keeps them so.

**Results.**  `lookup_insertField_self` and `lookup_insertField_of_ne`: of two fields with
one name the later one wins, and no other field changes.
-/

namespace DocLinks

/-- A JSON value; the fields of an object are ordered. -/
inductive Json where
  | null
  | bool (b : Bool)
  | number (n : Json.Number)
  | string (s : String)
  | array (items : List Json)
  | object (fields : List (String × Json))
  deriving Inhabited

namespace Json

/-- Puts a field into its place among fields sorted by name; a field of that name is
replaced. -/
def insertField (key : String) (value : Json) : List (String × Json) → List (String × Json)
  | [] => [(key, value)]
  | (k, v) :: rest =>
      if key < k then (key, value) :: (k, v) :: rest
      else if key = k then (key, value) :: rest
      else (k, v) :: insertField key value rest

theorem lookup_insertField_self (key : String) (value : Json)
    (fields : List (String × Json)) :
    (insertField key value fields).lookup key = some value := by
  induction fields with
  | nil => simp [insertField]
  | cons f rest ih =>
      obtain ⟨k, v⟩ := f
      simp only [insertField]
      split
      · simp
      · split
        · simp
        · rename_i h
          simp [List.lookup_cons, ih, show (key == k) = false by simpa using h]

theorem lookup_insertField_of_ne {key other : String} (value : Json)
    (fields : List (String × Json)) (h : other ≠ key) :
    (insertField key value fields).lookup other = fields.lookup other := by
  have hk : (other == key) = false := by simpa using h
  induction fields with
  | nil => simp [insertField, List.lookup_cons, hk]
  | cons f rest ih =>
      obtain ⟨k, v⟩ := f
      simp only [insertField]
      split
      · simp [List.lookup_cons, hk]
      · split
        · rename_i he
          subst he
          simp [List.lookup_cons, hk]
        · simp [List.lookup_cons, ih]

/-- An array of texts. -/
def strings (texts : List String) : Json :=
  .array (texts.map .string)

/-- A text or null. -/
def ofOption : Option String → Json
  | some s => .string s
  | none => .null

/-- A natural number. -/
def nat (n : Nat) : Json :=
  .number (.integer n)

end Json
end DocLinks
