/-!
# Files as a program sees them

A program reads whole files and looks for a file in the current directory and the directories
above it.  Everything else about the file system is left to whoever provides the view.

**Existence.**  Whether there is anything at a path is told from an attempt to read it.
Where access is denied that is taken for something, also if it is a directory above the path
that may not be searched and nothing can be seen of the path itself.

**Results.**  `mem_searchPath_of_find?`: a file that is found lies in one of the searched
directories.
-/

namespace DocLinks

/-- Why a file cannot be used.  Anything that has no name here is told in the words of the
system. -/
inductive FileError where
  | missing
  | notDirectory
  | isDirectory
  | nameTooLong
  | denied
  | notText
  | other (words : String)
  deriving DecidableEq, Repr, Inhabited

namespace FileError

/-- What is said about an error. -/
def message : FileError → String
  | missing => "No such file or directory (os error 2)"
  | notDirectory => "Not a directory (os error 20)"
  | isDirectory => "Is a directory (os error 21)"
  | nameTooLong => "File name too long (os error 36)"
  | denied => "Permission denied (os error 13)"
  | notText => "stream did not contain valid UTF-8"
  | other words => words

/-- Whether the error shows that nothing can be at the path. -/
def excludesExistence : FileError → Bool
  | missing => true
  | notDirectory => true
  | nameTooLong => true
  | _ => false

end FileError

/-- A view of the files: the current directory and those above it, nearest first, and the
bytes at a path. -/
structure Files where
  searchPath : List String
  read : String → Except FileError ByteArray

namespace Files

/-- Whether there is anything at a path. -/
def isPresent (f : Files) (path : String) : Bool :=
  match f.read path with
  | .ok _ => true
  | .error e => !e.excludesExistence

/-- The text in the file at a path. -/
def readText (f : Files) (path : String) : Except FileError String :=
  match f.read path with
  | .ok bytes =>
      match String.fromUTF8? bytes with
      | some s => .ok s
      | none => .error .notText
  | .error e => .error e

/-- The path of a name in a directory. -/
def within (directory name : String) : String :=
  if directory.endsWith "/" then directory ++ name else directory ++ "/" ++ name

/-- The path of the nearest file of the given name. -/
def find? (f : Files) (name : String) : Option String :=
  (f.searchPath.map (within · name)).find? f.isPresent

theorem mem_searchPath_of_find? {f : Files} {name path : String}
    (h : f.find? name = some path) :
    ∃ directory ∈ f.searchPath, path = within directory name ∧ f.isPresent path = true := by
  have hp : f.isPresent path = true := by simpa using List.find?_some h
  obtain ⟨directory, hd, rfl⟩ := List.mem_map.1 (List.mem_of_find?_eq_some h)
  exact ⟨directory, hd, rfl, hp⟩

end Files

end DocLinks
