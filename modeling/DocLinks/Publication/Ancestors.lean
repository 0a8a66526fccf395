import DocLinks.Reference

/-!
# Links to the parents of a symbol

The chain of parents of a symbol, each the first doclet with the long name that its child
names as its parent.  No long name is met twice, so the chain ends also where parents go
round in a circle.

**Algorithm.**  The doclets that may still be met are kept; a parent takes all doclets of its
long name out of them.

**Results.**  `mem_of_mem_chain`: parents are doclets that may be met.
-/

namespace DocLinks
namespace Ancestors

/-- The doclets without those of the given long name. -/
def without (longname : String) (ds : List Doclet) : List Doclet :=
  ds.filter fun d => d.longname != longname

/-- The parent of a doclet among the given ones. -/
def parent? (ds : List Doclet) (d : Doclet) : Option Doclet :=
  d.memberof.bind (Doclet.find? ds)

theorem mem_of_parent? {ds : List Doclet} {d p : Doclet}
    (h : parent? ds d = some p) : p ∈ ds := by
  obtain ⟨m, -, hm⟩ := Option.bind_eq_some_iff.1 h
  exact List.mem_of_find?_eq_some hm

theorem length_without_lt {ds : List Doclet} {p : Doclet} (h : p ∈ ds) :
    (without p.longname ds).length < ds.length :=
  List.length_filter_lt_length_iff_exists.2 ⟨p, h, by simp⟩

/-- The chain of parents of a doclet, nearest first, given the doclets that may still be
met. -/
def chain (remaining : List Doclet) (d : Doclet) : List Doclet :=
  match _h : parent? remaining d with
  | some p => p :: chain (without p.longname remaining) p
  | none => []
  termination_by remaining.length
  decreasing_by exact length_without_lt (mem_of_parent? _h)

theorem mem_of_mem_chain {remaining : List Doclet} {d a : Doclet}
    (h : a ∈ chain remaining d) :
    a ∈ remaining := by
  fun_induction chain remaining d with
  | case1 remaining d p hp ih =>
      rcases List.mem_cons.1 h with rfl | h
      · exact mem_of_parent? hp
      · exact (List.mem_filter.1 (ih h)).1
  | case2 => simp at h

/-- The parents of a doclet, outermost first. -/
def of (ds : List Doclet) (d : Doclet) : List Doclet :=
  (chain (without d.longname ds) d).reverse

/-- The punctuation of the scope of a doclet. -/
def punctuation (d : Doclet) : String :=
  (d.scope.map Scope.punctuation).getD ""

/-- The reference to a parent, shown as a part of a long name. -/
def reference (r : Registry) (a : Doclet) : Reference :=
  .ofTarget r a.longname (some (punctuation a ++ a.displayName))

/-- The references to the parents of a doclet. -/
def references (r : Registry) (ds : List Doclet) (d : Doclet) : List Reference :=
  (of ds d).map (reference r)

/-- Puts a text after the last of some texts. -/
def appendToLast (after : String) : List String → List String
  | [] => []
  | [s] => [s ++ after]
  | s :: t :: rest => s :: appendToLast after (t :: rest)

/-- The links to the parents of a doclet; the last one carries the punctuation of the doclet
itself, so that the links read like the start of its long name. -/
def links (r : Registry) (ds : List Doclet) (d : Doclet) : List String :=
  appendToLast (punctuation d) ((references r ds d).map Reference.html)

end Ancestors
end DocLinks
