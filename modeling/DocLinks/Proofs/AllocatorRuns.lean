import Mathlib.Data.List.Induction
import DocLinks.Proofs.FileBooks

/-!
# Files that are handed out one after the other

An allocator is asked for files and for fragments, in any order.  Every file that it hands
out has a basename that is safe in every file system and differs from all earlier ones, case
aside.

The case is looked at without the extension.  A capital sigma at the end of a word has
another lower case than one before the letters of the extension, so two files still may
differ in nothing but case: the basename of one of them ends in such a sigma then, and that
of the other does not.

**Invariant.**  `exists_books`: the books of an allocator list the files that it has handed
out, under the names for which it was asked.

**Results.**
* `isClaimedFor_run`: a file was claimed for a name if the allocator was asked for one.
* `files_collision_free`: what is handed out after any calls.
* `files_collide`: two files that differ in case only.
-/

namespace DocLinks
namespace Filename

/-- A call of an allocator: it is asked for the file of a name, or for a fragment in a file.
-/
inductive Call where
  | file (name : String)
  | anchor (path wish : String)
  deriving DecidableEq

namespace Call

/-- The name whose file is asked for. -/
def name? : Call → Option String
  | .file name => some name
  | .anchor _ _ => none

/-- An allocator after a call, and the files that it has handed out until then. -/
def step (s : Allocator × List String) : Call → Allocator × List String
  | .file name => ((s.1.claimFile name).2, s.2 ++ [(s.1.claimFile name).1])
  | .anchor path wish => ((s.1.claimAnchor path wish).2, s.2)

/-- An allocator after some calls, and the files that it has handed out. -/
def run (calls : List Call) : Allocator × List String :=
  calls.foldl step (.empty, [])

theorem run_concat (calls : List Call) (c : Call) :
    run (calls ++ [c]) = step (run calls) c :=
  List.foldl_concat step _ c calls

theorem isClaimedFor_run (calls : List Call) (name : String) :
    (run calls).1.isClaimedFor name = true ↔ file name ∈ calls := by
  induction calls using List.reverseRecOn with
  | nil => simp [run, Allocator.isClaimedFor_empty]
  | append_singleton calls c ih =>
      rw [run_concat, List.mem_append]
      rw [List.mem_singleton, ← ih]
      cases c with
      | file other =>
          rw [step, Allocator.isClaimedFor_claimFile, Bool.or_eq_true]
          rw [beq_iff_eq, file.injEq]
          rw [or_comm, eq_comm (a := name)]
      | anchor other wish => simp [step, Allocator.isClaimedFor_claimAnchor]

/-- The books of an allocator after some calls. -/
theorem exists_books (calls : List Call) : ∃ books : List (String × List Char),
    Books (run calls).1.files books ∧
      books.map (·.1) = (calls.filterMap name?).reverse ∧
      (run calls).2 = (books.map (·.2)).reverse.map fileOf := by
  induction calls using List.reverseRecOn with
  | nil => exact ⟨[], .nil, rfl, rfl⟩
  | append_singleton calls c ih =>
      obtain ⟨books, hbooks, hnames, hfiles⟩ := ih
      rw [run_concat, List.filterMap_append]
      cases c with
      | file name =>
          obtain ⟨base, hfile, hclaimed⟩ := hbooks.exists_claim name name
          exact ⟨(name, base) :: books, hclaimed, by simp [name?, hnames],
            by simp [step, hfile, hfiles]⟩
      | anchor path wish =>
          exact ⟨books, hbooks, by simp [name?, hnames], hfiles⟩

theorem isSafe_pad_basename (name : String) (k : Nat) :
    pad (basename name) k ≠ [] ∧ (pad (basename name) k).head? ≠ some '_' ∧
      ∀ c ∈ pad (basename name) k, isUnsafe c = false := by
  obtain ⟨c, s, hbase, hlow⟩ := exists_basename_eq_cons name
  refine ⟨by simp [pad, hbase], by simp [pad, hbase, hlow], fun d hd => ?_⟩
  rcases List.mem_append.1 hd with hd | hd
  · exact isUnsafe_of_mem_basename hd
  · rw [List.eq_of_mem_replicate hd]
    decide

/-- The file that is handed out for a name after any calls has the basename of the name with
as few low lines after it as make it differ from all earlier ones, case aside.  All basenames
are safe, and a file was claimed for exactly the names for which the allocator was asked for
one.  Files differ in more than case, as far as both or none of their basenames end in a
final sigma. -/
theorem files_collision_free (calls : List Call) (name : String) :
    ∃ bases : List (List Char), (run calls).2 = bases.map fileOf ∧
      bases.length = (calls.filterMap name?).length ∧
      (∃ k, ((run calls).1.claimFile name).1 = fileOf (pad (basename name) k) ∧
        IsLeast {k | Text.caseKey (pad (basename name) k) ∉ bases.map Text.caseKey} k) ∧
      (bases.map Text.caseKey).Nodup ∧
      (∀ base ∈ bases, base ≠ [] ∧ base.head? ≠ some '_' ∧ ∀ c ∈ base, isUnsafe c = false) ∧
      bases.Pairwise (fun base base' =>
        (Text.EndsInFinalSigma base ↔ Text.EndsInFinalSigma base') →
        Text.caseKey (fileOf base).toList ≠ Text.caseKey (fileOf base').toList) ∧
      ∀ n, (run calls).1.isClaimedFor n = true ↔ file n ∈ calls := by
  obtain ⟨books, hbooks, hnames, hfiles⟩ := exists_books calls
  have hkeys : (books.map (·.2)).reverse.map Text.caseKey =
      (run calls).1.takenFiles.reverse := by
    rw [Allocator.takenFiles, ← hbooks.map_caseKey]
    rw [List.map_reverse, List.map_map]
    rfl
  have hnodup : ((books.map (·.2)).reverse.map Text.caseKey).Nodup := by
    rw [hkeys, List.nodup_reverse]
    rw [Allocator.takenFiles, ← hbooks.map_caseKey]
    exact hbooks.nodup_caseKey
  refine ⟨(books.map (·.2)).reverse, hfiles, ?_, ?_, hnodup, fun base hbase => ?_, ?_,
    isClaimedFor_run calls⟩
  · rw [List.length_reverse, List.length_map, ← List.length_map (f := (·.1))]
    rw [hnames, List.length_reverse]
  · refine ⟨_, rfl, ?_⟩
    simp only [hkeys, List.mem_reverse]
    exact isLeast_padding _ _
  · obtain ⟨⟨owner, _⟩, hentry, rfl⟩ := List.mem_map.1 (List.mem_reverse.1 hbase)
    obtain ⟨source, k, hpad⟩ := hbooks.exists_eq_pad hentry
    rw [hpad]
    exact isSafe_pad_basename source k
  · exact (List.pairwise_map.1 hnodup).imp caseKey_fileOf_ne

example : (run [file "Foo", anchor "Foo.html" "bar", file "foo(2)", file "_x"]).2 =
    ["Foo.html", "foo_.html", "-_x.html"] := by
  decide +kernel

/-- Two files may differ in nothing but case, if only one of their basenames ends in a
capital sigma. -/
theorem files_collide :
    (run [file "ΑΣ", file "ασ"]).2 = ["ΑΣ.html", "ασ.html"] ∧
      ¬ ((run [file "ΑΣ", file "ασ"]).2.map fun path => Text.caseKey path.toList).Nodup := by
  decide +kernel

end Call
end Filename
end DocLinks
