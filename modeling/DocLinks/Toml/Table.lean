import DocLinks.Toml.Statement

/-!
# The table that TOML statements make up

Each statement adds to what the statements before it have built; nothing is ever taken back.
A table remembers how it came about, because that decides what may still be added to it:

* a table that only the longer name of another one implies may still get a header of its own;
* a table made or extended by the parts of a key may be extended by such keys, but gets no
  header;
* a table with a header may be extended by further headers only;
* a value, be it an array or a table between braces, is complete.

**Results.**  `lookup_assign_single`: an assignment is found under its key.
-/

namespace DocLinks
namespace Toml

/-- How a table came about: it is implied by a header for a table inside of it, made or
extended by the dotted parts of a key, or declared by its own header. -/
inductive Origin where
  | implied
  | dotted
  | declared
  deriving DecidableEq, Repr

/-- A part of the table under construction.  Of a list of tables, those before the last one
are in reverse order. -/
inductive Node where
  | value (v : Value)
  | table (origin : Origin) (fields : List (String × Node))
  | tables (before : List (List (String × Node))) (last : List (String × Node))
  deriving Inhabited

/-- The fields of a table under construction, in the order of the text. -/
abbrev Fields := List (String × Node)

namespace Fields

/-- The fields with another node under a key that is there. -/
def replace (key : String) (n : Node) (fs : Fields) : Fields :=
  fs.map fun (k, old) => if k == key then (k, n) else (k, old)

/-- Gives a key its value. -/
def assign (v : Value) : Path → Fields → Option Fields
  | [], _ => none
  | [key], fs => if (fs.lookup key).isSome then none else some (fs ++ [(key, .value v)])
  | key :: next :: path, fs =>
      match fs.lookup key with
      | none => (assign v (next :: path) []).map fun sub => fs ++ [(key, .table .dotted sub)]
      | some (.table origin sub) =>
          if origin == .declared then none
          else (assign v (next :: path) sub).map fun sub =>
            replace key (.table .dotted sub) fs
      | some (.tables before last) =>
          if path.isEmpty then none
          else (assign v (next :: path) last).map fun last =>
            replace key (.tables before last) fs
      | some (.value _) => none

/-- What a header does to the table that it names, given what is there. -/
abbrev Declaration := Option Node → Option Node

/-- The header of a single table. -/
def declareTable : Declaration
  | none => some (.table .declared [])
  | some (.table .implied fs) => some (.table .declared fs)
  | some _ => none

/-- The header of one more table in a list. -/
def declareNext : Declaration
  | none => some (.tables [] [])
  | some (.tables before last) => some (.tables (last :: before) [])
  | some _ => none

/-- The fields with a node under a key, new or replaced. -/
def put (key : String) (n : Node) (fs : Fields) : Fields :=
  if (fs.lookup key).isSome then replace key n fs else fs ++ [(key, n)]

/-- Carries out a header. -/
def declare (d : Declaration) : Path → Fields → Option Fields
  | [], _ => none
  | [key], fs => (d (fs.lookup key)).map fun n => put key n fs
  | key :: next :: path, fs =>
      match fs.lookup key with
      | none => (declare d (next :: path) []).map fun sub => put key (.table .implied sub) fs
      | some (.table origin sub) =>
          (declare d (next :: path) sub).map fun sub => put key (.table origin sub) fs
      | some (.tables before last) =>
          (declare d (next :: path) last).map fun last => put key (.tables before last) fs
      | some (.value _) => none

/-- Changes the table that a path leads to; of a list of tables that is the last one. -/
def change (f : Fields → Option Fields) : Path → Fields → Option Fields
  | [], fs => f fs
  | key :: path, fs =>
      match fs.lookup key with
      | some (.table origin sub) =>
          (change f path sub).map fun sub => replace key (.table origin sub) fs
      | some (.tables before last) =>
          (change f path last).map fun last => replace key (.tables before last) fs
      | _ => none

theorem lookup_assign_single {v : Value} {key : String} {fs fs' : Fields}
    (h : assign v [key] fs = some fs') : fs'.lookup key = some (.value v) := by
  cases hl : fs.lookup key with
  | some n => simp [assign, hl] at h
  | none =>
      simp only [assign, hl, Option.isSome_none, Bool.false_eq_true, if_false,
        Option.some.injEq] at h
      subst h
      induction fs with
      | nil => simp
      | cons f fs ih =>
          obtain ⟨k, n⟩ := f
          by_cases hk : key == k
          · simp [List.lookup_cons, hk] at hl
          · simp only [List.lookup_cons, hk] at hl
            simp [List.lookup_cons, hk, ih hl]

end Fields

mutual

/-- The value of a node. -/
def Node.toValue : Node → Value
  | .value v => v
  | .table _ fs => .table (toValues fs)
  | .tables before last => .array ((tableValues before).reverse ++ [.table (toValues last)])

/-- The values of the fields of a table. -/
def toValues : List (String × Node) → List (String × Value)
  | [] => []
  | (key, n) :: fs => (key, n.toValue) :: toValues fs

/-- The values of tables. -/
def tableValues : List (List (String × Node)) → List Value
  | [] => []
  | fs :: rest => .table (toValues fs) :: tableValues rest

end

mutual

/-- The value of a term, unless there are assignments in it that do not go together. -/
def Term.value? : Term → Option Value
  | .leaf v => some v
  | .array items => (termValues? items).map .array
  | .braces fields => (assignTerms? fields []).map fun fs => .table (toValues fs)

/-- The values of terms. -/
def termValues? : List Term → Option (List Value)
  | [] => some []
  | t :: ts => do
      let v ← t.value?
      let vs ← termValues? ts
      return v :: vs

/-- The fields after assignments. -/
def assignTerms? : List (Path × Term) → Fields → Option Fields
  | [], fs => some fs
  | (path, t) :: rest, fs => do
      let v ← t.value?
      let fs ← Fields.assign v path fs
      assignTerms? rest fs

end

/-- The table under construction, and the path to the current one. -/
structure Construction where
  fields : Fields := []
  current : Path := []

namespace Construction

/-- Carries out a statement. -/
def add (c : Construction) : Statement → Option Construction
  | .assign path t => do
      let v ← t.value?
      let fs ← c.fields.change (Fields.assign v path) c.current
      return { c with fields := fs }
  | .header path => do
      let fs ← c.fields.declare Fields.declareTable path
      return ⟨fs, path⟩
  | .listHeader path => do
      let fs ← c.fields.declare Fields.declareNext path
      return ⟨fs, path⟩

end Construction

/-- The fields of the table that a text describes, unless it is no TOML. -/
def read? (s : List Char) : Option (List (String × Value)) := do
  let statements ← statements? s
  let c ← statements.foldlM Construction.add {}
  return toValues c.fields

end Toml
end DocLinks
