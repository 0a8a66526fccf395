import DocLinks.Text.Lowercase
import DocLinks.Text.Split

/-!
# Filenames and fragments without collisions

Every page has a filename of its own, also where filenames are compared without case, and
every fragment is unique on its page in the same sense.

**Input.**  A long name, or a wish for a fragment on a page.

**Algorithm.**  A long name is turned into a basename that is safe in every file system.  Low
lines are appended to it until its lower case has not been taken; as many lower cases are
tried as have been taken, and one more, so one of them is free.

**Results.**  `Allocator.isClaimedFor_claimFile`: which names have a file after one more has
been claimed; `isUnsafe_safeChar`: no unsafe character is left in a name.
-/

namespace DocLinks
namespace Filename

/-- The kinds whose long names are marked with their name and a colon. -/
def markedKinds : List (List Char) :=
  ["event".toList, "external".toList, "module".toList, "package".toList]

/-- Turns the colon after the kind of a long name into a hyphen. -/
def hyphenateKind (s : List Char) : List Char :=
  match markedKinds.findSome? fun kind => (Text.after? (kind ++ [':']) s).map (kind, ·) with
  | some (kind, rest) => kind ++ '-' :: rest
  | none => s

/-- Characters that some file system refuses, or that have a meaning in a long name. -/
def isUnsafe (c : Char) : Bool :=
  ['\\', '/', '?', '*', ':', '|', '\'', '"', '<', '>', '~', '#'].contains c

/-- A safe character in place of any character. -/
def safeChar (c : Char) : Char :=
  if c = '~' then '-' else if isUnsafe c then '_' else c

theorem isUnsafe_safeChar (c : Char) : isUnsafe (safeChar c) = false := by
  unfold safeChar
  split
  · decide
  · split
    · decide
    · simp_all

/-- Drops a variation in parentheses from the end of a name. -/
def dropVariation (s : List Char) : List Char :=
  if s.getLast? = some ')' then s.takeWhile (· != '(') else s

/-- Drops one leading point or hyphen. -/
def dropLead : List Char → List Char
  | '.' :: s => s
  | '-' :: s => s
  | s => s

/-- The basename of a long name before it is made unique; it is never empty and never starts
with a low line. -/
def basename (name : String) : List Char :=
  match dropLead (dropVariation ((hyphenateKind name.toList).map safeChar)) with
  | [] => ['-', '_']
  | '_' :: s => '-' :: '_' :: s
  | s => s

/-- A text with low lines after it. -/
def pad (s : List Char) (k : Nat) : List Char :=
  s ++ List.replicate k '_'

/-- The least number of low lines that makes a text differ from all taken ones, case
aside. -/
def padding (taken : List String) (s : List Char) : Nat :=
  ((List.range (taken.length + 1)).find? fun k =>
    !taken.contains (Text.caseKey (pad s k))).getD
    (taken.length + 1)

/-- What all pages end in. -/
def extension : String := ".html"

/-- A basename that is in use, in lower case, with the name it was made for. -/
structure Claim where
  key : String
  source : String
  deriving DecidableEq, Repr

/-- A fragment that is in use in a file, in lower case. -/
structure Anchor where
  file : String
  key : String
  deriving DecidableEq, Repr

/-- All basenames and fragments in use, latest first. -/
structure Allocator where
  files : List Claim := []
  anchors : List Anchor := []
  deriving Inhabited

namespace Allocator

/-- Nothing is in use. -/
def empty : Allocator := {}

/-- The lower cases of all basenames in use. -/
def takenFiles (a : Allocator) : List String :=
  a.files.map (·.key)

/-- The lower cases of the fragments in use in a file. -/
def takenAnchors (a : Allocator) (file : String) : List String :=
  (a.anchors.filter (·.file == file)).map (·.key)

/-- Claims a new filename for a name; a second claim for the same name gives another file. -/
def claimFile (a : Allocator) (name : String) : String × Allocator :=
  let base := basename name
  let unique := pad base (padding a.takenFiles base)
  (String.ofList unique ++ extension,
    { a with files := ⟨Text.caseKey unique, name⟩ :: a.files })

/-- Claims a fragment that is unique in its file; blanks are dropped from the wish. -/
def claimAnchor (a : Allocator) (file wish : String) : String × Allocator :=
  let base := wish.toList.filter fun c => !Text.isBlank c
  let unique := pad base (padding (a.takenAnchors file) base)
  (String.ofList unique, { a with anchors := ⟨file, Text.caseKey unique⟩ :: a.anchors })

/-- Whether some filename was claimed for exactly this name. -/
def isClaimedFor (a : Allocator) (name : String) : Bool :=
  a.files.any (·.source == name)

theorem isClaimedFor_empty (name : String) : empty.isClaimedFor name = false := rfl

theorem isClaimedFor_claimFile (a : Allocator) (name other : String) :
    (a.claimFile name).2.isClaimedFor other = (name == other || a.isClaimedFor other) := rfl

theorem isClaimedFor_claimAnchor (a : Allocator) (file wish other : String) :
    (a.claimAnchor file wish).2.isClaimedFor other = a.isClaimedFor other := rfl

end Allocator

end Filename
end DocLinks
