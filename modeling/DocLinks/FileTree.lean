import DocLinks.Files
import DocLinks.Text.Split

/-!
# Trees of files

A tree of files under a root directory, with a current directory in it.  Paths are followed
name by name: each step needs a directory to start from, `.` stays, and `..` goes up.  Above
the root there is nothing but directories.

**Results.**  `content?_write`: what is written to a place is what is there.
-/

namespace DocLinks

/-- The names on the way from the root to a place. -/
abbrev Place := List String

/-- The place that a path below the root names, blank steps aside. -/
def Place.ofPath (path : String) : Place :=
  ((Text.fields (· == '/') path.toList).map String.ofList).filter fun name =>
    name != "" && name != "."

/-- A tree of files below a root directory, with the current directory in it. -/
structure FileTree where
  root : String
  files : List (Place × ByteArray) := []
  current : Place := []

namespace FileTree

/-- The bytes of the file at a place. -/
def content? (t : FileTree) (p : Place) : Option ByteArray :=
  t.files.lookup p

/-- Whether a place is a directory: the way to a file or to the current directory. -/
def isDirectory (t : FileTree) (p : Place) : Bool :=
  p.isPrefixOf t.current ||
    t.files.any fun (q, _) => p.isPrefixOf q && p != q

/-- The largest number of bytes in a name. -/
def maxNameBytes : Nat := 255

/-- The largest number of bytes in a path. -/
def maxPathBytes : Nat := 4095

/-- Where a path has led so far: to a place in the tree, or out of it. -/
abbrev Location := Option Place

/-- Follows one name. -/
def step (t : FileTree) (here : Location) (name : String) : Except FileError Location :=
  match here with
  | some p =>
      if (t.content? p).isSome then .error .notDirectory
      else if name == "" || name == "." then .ok (some p)
      else if name == ".." then .ok (if p.isEmpty then none else some p.dropLast)
      else if maxNameBytes < name.utf8ByteSize then .error .nameTooLong
      else if (t.content? (p ++ [name])).isSome || t.isDirectory (p ++ [name]) then
        .ok (some (p ++ [name]))
      else .error .missing
  | none =>
      if name == "" || name == "." || name == ".." then .ok none
      else if maxNameBytes < name.utf8ByteSize then .error .nameTooLong
      else .error .missing

/-- Where a path starts, and the names in it. -/
def start (t : FileTree) (path : String) : Location × List String :=
  let names (s : List Char) := (Text.fields (· == '/') s).map String.ofList
  match Text.after? t.root.toList path.toList with
  | some [] => (some [], [])
  | some ('/' :: rest) => (some [], names rest)
  | _ =>
      match path.toList with
      | '/' :: rest => (none, names rest)
      | s => (some t.current, names s)

/-- Where a path leads. -/
def locate (t : FileTree) (path : String) : Except FileError Location :=
  if path == "" then .error .missing
  else if maxPathBytes < path.utf8ByteSize then .error .nameTooLong
  else
    let (here, names) := t.start path
    names.foldlM t.step here

/-- The bytes of the file at a path. -/
def read (t : FileTree) (path : String) : Except FileError ByteArray :=
  match t.locate path with
  | .ok (some p) =>
      match t.content? p with
      | some bytes => .ok bytes
      | none => .error .isDirectory
  | .ok none => .error .isDirectory
  | .error e => .error e

/-- The path of a place. -/
def pathOf (t : FileTree) (p : Place) : String :=
  p.foldl (fun path name => path ++ "/" ++ name) t.root

/-- A place and those above it, nearest first. -/
def lineage (p : Place) : List Place :=
  (List.range (p.length + 1)).reverse.map p.take

/-- The tree as a program sees it. -/
def view (t : FileTree) : Files where
  searchPath := (lineage t.current).map t.pathOf
  read := t.read

/-- The tree with a file at a place. -/
def write (t : FileTree) (p : Place) (bytes : ByteArray) : FileTree :=
  { t with files := (p, bytes) :: t.files }

/-- The last name in a path and what leads to it; nothing if the path ends where only a
directory can be. -/
def splitLast (names : List String) : Option (List String × String) :=
  match names.reverse with
  | [] => none
  | last :: rest =>
      if last == "." || last == ".." || last == "" then none else some (rest.reverse, last)

/-- The names in a path without empty ones at its end. -/
def trimNames (names : List String) : List String :=
  (names.reverse.dropWhile (· == "")).reverse

/-- Follows names to a directory. -/
def enter (t : FileTree) (here : Location) (names : List String) :
    Except FileError Location :=
  (names ++ ["."]).foldlM t.step here

/-- The place to which a path to a file leads; the file need not exist. -/
def target (t : FileTree) (path : String) : Except FileError Location :=
  if path == "" then .error .missing
  else if maxPathBytes < path.utf8ByteSize then .error .nameTooLong
  else
    let (here, names) := t.start path
    match splitLast names with
    | none => do
        let _ ← t.enter here (trimNames names).dropLast
        .error .isDirectory
    | some (leading, last) => do
        let parent ← t.enter here leading
        if maxNameBytes < last.utf8ByteSize then .error .nameTooLong
        else
          match parent with
          | none => .ok none
          | some p =>
              if t.isDirectory (p ++ [last]) then .error .isDirectory
              else .ok (some (p ++ [last]))

/-- Writes a text to the file at a path. -/
def writeText (t : FileTree) (path content : String) : Except FileError FileTree :=
  match t.target path with
  | .ok (some p) => .ok (t.write p content.toUTF8)
  | .ok none => .ok t
  | .error e => .error e

theorem content?_write (t : FileTree) (p : Place) (bytes : ByteArray) :
    (t.write p bytes).content? p = some bytes := by
  simp [write, content?]

end FileTree

end DocLinks
