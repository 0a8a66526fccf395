import DocLinks.Doclet.Basic

/-!
# Source paths

The paths of all source files without the directories that all of them share.

**Algorithm.**  A path is cut into segments at slashes of both kinds.  The directories that
are shared are the longest common start of all paths without their last segments.

**Results.**  `commonStartAll_isPrefix`: what is cut off is a start of every path.
-/

namespace DocLinks
namespace SourcePath

/-- The segments of a path. -/
def segments (path : String) : List String :=
  (Text.fields Doclet.isSlash path.toList).map String.ofList

/-- The longest common start of two lists of segments. -/
def commonStart : (a b : List String) → List String
  | x :: a, y :: b => if x = y then x :: commonStart a b else []
  | _, _ => []

/-- The longest common start of some lists of segments. -/
def commonStartAll : List (List String) → List String
  | [] => []
  | [a] => a
  | a :: b :: rest => commonStart a (commonStartAll (b :: rest))

/-- The directories that all paths share. -/
def sharedDirectories (paths : List String) : List String :=
  commonStartAll (paths.map fun path => (segments path).dropLast)

/-- A path without its first segments. -/
def dropSegments (n : Nat) (path : String) : String :=
  "/".intercalate ((segments path).drop n)

/-- All paths, each with its short form. -/
def shorten (paths : List String) : List (String × String) :=
  let n := (sharedDirectories paths).length
  paths.map fun path => (path, dropSegments n path)

/-- The paths of the source files of some doclets, each once. -/
def ofDoclets (ds : List Doclet) : List String :=
  (ds.filterMap Doclet.sourcePath).eraseDups

theorem commonStart_isPrefix_left (a b : List String) : commonStart a b <+: a := by
  induction a generalizing b with
  | nil => simp [commonStart]
  | cons x a ih =>
      cases b with
      | nil => simp [commonStart]
      | cons y b =>
          simp only [commonStart]
          split
          · exact (List.prefix_cons_inj x).2 (ih b)
          · exact List.nil_prefix

theorem commonStart_isPrefix_right (a b : List String) : commonStart a b <+: b := by
  induction a generalizing b with
  | nil => simp [commonStart]
  | cons x a ih =>
      cases b with
      | nil => simp [commonStart]
      | cons y b =>
          simp only [commonStart]
          split
          · rename_i h
            subst h
            exact (List.prefix_cons_inj x).2 (ih b)
          · exact List.nil_prefix

theorem commonStartAll_isPrefix {lists : List (List String)}
    {a : List String} (h : a ∈ lists) :
    commonStartAll lists <+: a := by
  induction lists with
  | nil => simp at h
  | cons b rest ih =>
      cases rest with
      | nil =>
          rw [List.mem_singleton] at h
          subst h
          exact List.prefix_rfl
      | cons c rest =>
          rcases List.mem_cons.1 h with rfl | h
          · exact commonStart_isPrefix_left _ _
          · exact (commonStart_isPrefix_right _ _).trans (ih h)

end SourcePath
end DocLinks
