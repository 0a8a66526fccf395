import DocLinks.Reference

/-!
# Short names

A symbol of an inner scope can be referred to by the part of its long name after the first
tilde, as long as no other registered name ends in the same way.  Such short names become
aliases; those that several names share are only reported.

**Results.**  `addAliases_entries_append`: no entry changes.
-/

namespace DocLinks
namespace Shortname

/-- The part of a long name after its first tilde, unless it is empty. -/
def of? (longname : String) : Option String :=
  match Text.cutAtFirst (· == '~') longname.toList with
  | some (_, short) => if short.isEmpty then none else some (String.ofList short)
  | none => none

/-- What became of the short names: the aliases that were registered, and those that several
names share. -/
structure Report where
  added : List String := []
  ambiguous : List String := []
  deriving DecidableEq, Repr, Inhabited

/-- The short names of all entries, each with the link of its entry. -/
def candidates (r : Registry) : List (String × String) :=
  r.entries.filterMap fun e => (of? e.name).map (·, e.url)

/-- How many entries share a short name. -/
def count (all : List (String × String)) (short : String) : Nat :=
  all.countP (·.1 == short)

/-- The candidates whose short name belongs to them alone. -/
def unambiguous (all : List (String × String)) : List (String × String) :=
  all.filter fun c => count all c.1 == 1

/-- The short names that are shared, each once. -/
def ambiguous (all : List (String × String)) : List String :=
  ((all.filter fun c => count all c.1 != 1).map (·.1)).eraseDups

/-- Registers aliases one by one, and gives the names that were free. -/
def register : List (String × String) → Registry → List String × Registry
  | [], r => ([], r)
  | (short, url) :: rest, r =>
      if r.contains short then register rest r
      else
        let (added, r') := register rest (r.registerAlias short url)
        (short :: added, r')

/-- Registers an alias for every short name that belongs to one entry alone. -/
def addAliases (r : Registry) : Report × Registry :=
  let all := candidates r
  let (added, r') := register (unambiguous all) r
  (⟨added, ambiguous all⟩, r')

/-- What is to be said about the short names of a registry. -/
def warnings (r : Registry) : List Warning :=
  let all := candidates r
  (ambiguous all).map fun short => .ambiguousShortname short (count all short)

theorem register_entries_append (all : List (String × String)) (r : Registry) :
    ∃ more, (register all r).2.entries = r.entries ++ more := by
  induction all generalizing r with
  | nil => exact ⟨[], by simp [register]⟩
  | cons c rest ih =>
      obtain ⟨short, url⟩ := c
      simp only [register]
      split
      · exact ih r
      · rename_i h
        obtain ⟨more, hm⟩ := ih (r.registerAlias short url)
        refine ⟨⟨short, url, true⟩ :: more, ?_⟩
        have hr : (r.registerAlias short url).entries =
            r.entries ++ [⟨short, url, true⟩] := by
          unfold Registry.registerAlias Registry.add
          rw [if_neg h]
        rw [hm, hr, List.append_assoc]
        rfl

/-- The entries of a registry stay as they are, and the aliases come after them. -/
theorem addAliases_entries_append (r : Registry) :
    ∃ more, (addAliases r).2.entries = r.entries ++ more :=
  register_entries_append _ r

end Shortname
end DocLinks
