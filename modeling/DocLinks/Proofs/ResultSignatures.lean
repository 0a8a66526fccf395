import DocLinks.Signature
import Mathlib.Data.List.Induction

/-!
# Signatures with results

Behind the arrow of a signature stand, in parentheses, what is said about any of the results
and, in braces, the types of all of them.  Only what a doclet yields counts if it yields
anything, and otherwise what it returns.

**Badges.**  Every badge is shown once, in the order in which the results are gone through.
A result adds the badges that none before it has; its own ones begin with `opt`.

**Types.**  Every type name is shown by a reference of its own, also if it comes again, and
every reference that leads nowhere is worth a warning.

**Results.**
* `resultBadges_concat`, `BadgesOf.concat`: what one more result adds to the badges.
* `resultBadges_eq_iff`: which badges are shown, and in which order.
* `warnings_typeReferences`: which type names are worth a warning.
* `addReturns_assembled`: what becomes of a doclet when its results are appended to its
  signature.
* `any_unreported`: the type `any` is worth no warning.
-/

namespace DocLinks

section Repetitions

variable {α : Type}

/-- Of two places in a list, one is in front of the other unless they are the same. -/
theorem eq_or_mem_of_append_cons {front back front' back' : List α} {a b : α}
    (h : front ++ a :: back = front' ++ b :: back') : a = b ∨ a ∈ front' ∨ b ∈ front := by
  rcases List.append_eq_append_iff.1 h with ⟨between, rfl, heq⟩ | ⟨between, rfl, heq⟩
  · cases between with
    | nil => exact .inl (List.cons.inj heq).1
    | cons c between =>
        rw [(List.cons.inj heq).1]
        exact .inr (.inl (List.mem_append_right _ List.mem_cons_self))
  · cases between with
    | nil => exact .inl (List.cons.inj heq).1.symm
    | cons c between =>
        rw [(List.cons.inj heq).1]
        exact .inr (.inr (List.mem_append_right _ List.mem_cons_self))

theorem eraseDups_of_nodup [BEq α] [LawfulBEq α] {l : List α} (h : l.Nodup) :
    l.eraseDups = l := by
  induction l with
  | nil => rfl
  | cons a l ih =>
      obtain ⟨hnew, hrest⟩ := List.nodup_cons.1 h
      rw [List.eraseDups_cons, List.filter_eq_self.2, ih hrest]
      intro c hc
      simpa using fun heq : c = a => hnew (heq ▸ hc)

end Repetitions

namespace Html

section Escaping

variable (s t : String)

theorem text_append : text (s ++ t) = text s ++ text t := by
  rw [text, String.toList_append, escapeText]
  rw [List.flatMap_append, String.ofList_append]
  rfl

theorem text_intercalate (l : List String) :
    text (s.intercalate l) = (text s).intercalate (l.map text) := by
  induction l with
  | nil => rfl
  | cons t l ih =>
      cases l with
      | nil =>
          rw [List.map_singleton, String.intercalate_singleton, String.intercalate_singleton]
      | cons u l =>
          rw [List.map_cons, List.map_cons, String.intercalate_cons_cons]
          rw [String.intercalate_cons_cons, text_append, text_append]
          rw [ih, List.map_cons]

end Escaping

end Html

namespace Signature

section Badges

/-- What a badge says about a result. -/
inductive HasBadge (p : Param) : String → Prop
  | opt : p.optional = true → HasBadge p "opt"
  | nullable : p.nullable = some true → HasBadge p "nullable"
  | nonNull : p.nullable = some false → HasBadge p "non-null"

/-- One badge is met before another: some result has it, none before that result has the
other, and if that result has both, then the first of them is `opt`. -/
def MetBefore (ps : List Param) (b b' : String) : Prop :=
  b ≠ b' ∧ ∃ front p back, ps = front ++ p :: back ∧ HasBadge p b ∧
    (∀ q ∈ front, ¬ HasBadge q b') ∧ (HasBadge p b' → b = "opt")

/-- The badges of some results: every one of them once, in the order in which they are
met. -/
structure BadgesOf (ps : List Param) (bs : List String) : Prop where
  mem_iff (b : String) : b ∈ bs ↔ ∃ p ∈ ps, HasBadge p b
  nodup : bs.Nodup
  ordered : bs.Pairwise (MetBefore ps)

variable {p : Param} {ps : List Param} {b b' : String} {bs bs' : List String}

theorem mem_nullabilityBadges_iff :
    b ∈ nullabilityBadges p.nullable ↔
      b = "nullable" ∧ p.nullable = some true ∨ b = "non-null" ∧
      p.nullable = some false := by
  cases p.nullable with
  | none => simp [nullabilityBadges]
  | some nullable => cases nullable <;> simp [nullabilityBadges]

theorem mem_badges_iff : b ∈ badges p ↔ HasBadge p b := by
  rw [badges, List.mem_append, mem_nullabilityBadges_iff]
  constructor
  · rintro (hopt | ⟨rfl, hnullable⟩ | ⟨rfl, hnullable⟩)
    · split at hopt
      · rw [List.mem_singleton.1 hopt]
        exact .opt ‹_›
      · cases hopt
    · exact .nullable hnullable
    · exact .nonNull hnullable
  · rintro (hopt | hnullable | hnullable)
    · exact .inl (by rw [if_pos hopt]; exact List.mem_singleton_self _)
    · exact .inr (.inl ⟨rfl, hnullable⟩)
    · exact .inr (.inr ⟨rfl, hnullable⟩)

/-- A result has at most two badges, and the first of two is `opt`. -/
theorem pairwise_badges (p : Param) :
    (badges p).Pairwise fun b b' => b ≠ b' ∧ b = "opt" := by
  unfold badges
  cases p.optional <;> rcases p.nullable with _ | _ | _ <;> decide

theorem MetBefore.append (h : MetBefore ps b b') (qs : List Param) :
    MetBefore (ps ++ qs) b b' := by
  obtain ⟨hne, front, p, back, rfl, hp, hfront, hopt⟩ := h
  exact ⟨hne, front, p, back ++ qs, by
    rw [List.append_assoc, List.cons_append], hp, hfront, hopt⟩

/-- A badge that some results have is met before one that none of them has. -/
theorem metBefore_of_new (hp : p ∈ ps) (hb : HasBadge p b) (hnew : ∀ q ∈ ps, ¬ HasBadge q b')
    (qs : List Param) : MetBefore (ps ++ qs) b b' := by
  obtain ⟨front, back, rfl⟩ := List.append_of_mem hp
  refine MetBefore.append ⟨?_, front, p, back, rfl, hb, ?_,
    fun hb' => absurd hb' (hnew p hp)⟩ qs
  · rintro rfl
    exact hnew p hp hb
  · exact fun q hq => hnew q (List.mem_append_left _ hq)

theorem MetBefore.asymm (h : MetBefore ps b b') : ¬ MetBefore ps b' b := by
  rintro ⟨-, front', p', back', hsplit, hp', hfront', hopt'⟩
  obtain ⟨hne, front, p, back, rfl, hp, hfront, hopt⟩ := h
  rcases eq_or_mem_of_append_cons hsplit with rfl | hmem | hmem
  · exact hne ((hopt hp').trans (hopt' hp).symm)
  · exact hfront' p hmem hp
  · exact hfront p' hmem hp'

/-- One more result adds those of its badges that are new. -/
theorem resultBadges_concat (ps : List Param) (p : Param) :
    resultBadges (ps ++ [p]) =
      resultBadges ps ++ (badges p).filter fun b => b ∉ resultBadges ps := by
  have hnew : (badges p).removeAll (ps.flatMap badges) = (badges p).filter fun b =>
      b ∉ resultBadges ps := by
    refine List.filter_congr fun b _ => ?_
    rw [Bool.eq_iff_iff]
    simp [resultBadges]
  have hnodup : (badges p).Nodup := (pairwise_badges p).imp And.left
  rw [resultBadges, List.flatMap_append, List.flatMap_singleton]
  rw [List.eraseDups_append, hnew]
  rw [eraseDups_of_nodup (hnodup.filter _), ← resultBadges]

theorem BadgesOf.concat (h : BadgesOf ps bs) (p : Param) :
    BadgesOf (ps ++ [p]) (bs ++ (badges p).filter fun b => b ∉ bs) := by
  have hnew : ∀ b ∈ (badges p).filter (fun b => b ∉ bs), HasBadge p b ∧
      ∀ q ∈ ps, ¬ HasBadge q b := by
    intro b hb
    obtain ⟨hb, hnot⟩ := List.mem_filter.1 hb
    exact ⟨mem_badges_iff.1 hb, fun q hq hqb =>
      of_decide_eq_true hnot ((h.mem_iff b).2 ⟨q, hq, hqb⟩)⟩
  have hordered : (bs ++ (badges p).filter fun b => b ∉ bs).Pairwise
      (MetBefore (ps ++ [p])) := by
    refine List.pairwise_append.2 ⟨h.ordered.imp fun hbb' => hbb'.append [p], ?_,
      fun b hb b' hb' => ?_⟩
    · refine ((pairwise_badges p).filter _).imp_of_mem fun {b b'} hb hb' hopt => ?_
      exact ⟨hopt.1, ps, p, [], rfl, (hnew b hb).1, (hnew b' hb').2, fun _ => hopt.2⟩
    · obtain ⟨q, hq, hqb⟩ := (h.mem_iff b).1 hb
      exact metBefore_of_new hq hqb (hnew b' hb').2 [p]
  refine ⟨fun b => ?_, hordered.imp And.left, hordered⟩
  by_cases hb : b ∈ bs
  · obtain ⟨q, hq, hqb⟩ := (h.mem_iff b).1 hb
    exact iff_of_true (List.mem_append_left _ hb) ⟨q, List.mem_append_left _ hq, hqb⟩
  · have hnone : ¬ ∃ q ∈ ps, HasBadge q b := mt (h.mem_iff b).2 hb
    simp only [List.mem_append, List.mem_filter, hb, not_false_eq_true, decide_true,
      and_true, false_or, mem_badges_iff, or_and_right, exists_or, hnone, List.mem_singleton,
      exists_eq_left]

theorem badgesOf_resultBadges (ps : List Param) : BadgesOf ps (resultBadges ps) := by
  -- the results are gone through from left to right
  induction ps using List.reverseRecOn with
  | nil => exact ⟨fun b => by simp [resultBadges], .nil, .nil⟩
  | append_singleton ps p ih =>
      rw [resultBadges_concat]
      exact ih.concat p

theorem BadgesOf.unique (h : BadgesOf ps bs) (h' : BadgesOf ps bs') : bs = bs' := by
  have hperm : bs.Perm bs' := (List.perm_ext_iff_of_nodup h.nodup h'.nodup).2 fun b =>
    (h.mem_iff b).trans (h'.mem_iff b).symm
  exact hperm.eq_of_pairwise (fun b b' _ _ hbb' hb'b =>
    absurd hb'b hbb'.asymm) h.ordered h'.ordered

/-- The badges that are shown are determined by what is said about the results. -/
theorem resultBadges_eq_iff : resultBadges ps = bs ↔ BadgesOf ps bs := by
  constructor
  · rintro rfl
    exact badgesOf_resultBadges ps
  · exact (badgesOf_resultBadges ps).unique

example :
    resultBadges [{ nullable := some true }, { optional := true, nullable := some false }] =
    ["nullable", "opt", "non-null"] := by
  decide

/-- Badges need no escaping. -/
theorem parenthesized_of_badgesOf (h : BadgesOf ps bs) :
    parenthesized bs = if bs = [] then "" else "(" ++ ", ".intercalate bs ++ ") " := by
  have hplain : bs.map Html.text = bs := by
    refine (List.map_congr_left fun b hb => ?_).trans (List.map_id bs)
    obtain ⟨p, -, hbadge⟩ := (h.mem_iff b).1 hb
    cases hbadge with
    | opt => rfl
    | nullable => rfl
    | nonNull => rfl
  rw [parenthesized]
  cases bs with
  | nil => rfl
  | cons b bs =>
      rw [List.isEmpty_cons, if_neg Bool.false_ne_true, if_neg (List.cons_ne_nil b bs)]
      rw [Html.text_append, Html.text_append]
      rw [Html.text_intercalate, hplain]
      rfl

end Badges

section Types

/-- The names of the types of some results. -/
def resultTypes (ps : List Param) : List String :=
  ps.flatMap fun p => typeNames p.type

/-- What is shown for the name of a type. -/
def typeHtml (r : Registry) (name : String) : String :=
  (Reference.ofTarget r name (some (Html.text name))).html

theorem alternatives_typeReferences (r : Registry) (names : List String) :
    alternatives (typeReferences r names) = "|".intercalate (names.map (typeHtml r)) := by
  rw [alternatives, typeReferences, List.map_map]
  rfl

theorem resultReferences_eq (r : Registry) (d : Doclet) :
    resultReferences r d = typeReferences r (resultTypes (results d)) := by
  rw [typeReferences, resultTypes, List.map_flatMap]
  rfl

/-- There is a warning for every time that a name is looked up in vain. -/
theorem warnings_typeReferences (r : Registry) (context : String) (names : List String) :
    warnings context (typeReferences r names) =
      (names.filter (Reference.IsUnknown r ·)).map fun name =>
        .unknownLink (Reference.targetName name) context := by
  induction names with
  | nil => rfl
  | cons name names ih =>
      rw [typeReferences, List.map_cons, warnings]
      rw [List.flatMap_cons, Reference.warnings_ofTarget, ← typeReferences]
      rw [← warnings, ih, List.filter_cons]
      by_cases hunknown : Reference.IsUnknown r name
      · rw [if_pos hunknown, if_pos (decide_eq_true hunknown)]
        rfl
      · rw [if_neg hunknown, if_neg (by simpa using hunknown)]
        rfl

end Types

section Results

theorem results_cases (d : Doclet) :
    d.yields ≠ [] ∧ results d = d.yields ∨ d.yields = [] ∧ results d = d.returns := by
  unfold results
  cases d.yields with
  | nil => exact .inr ⟨rfl, rfl⟩
  | cons p ps => exact .inl ⟨List.cons_ne_nil p ps, rfl⟩

/-- Nothing stands behind the signature of a doclet whose results have no types. -/
theorem arrow_typeReferences {ps : List Param} {bs : List String}
    (h : BadgesOf ps bs) (r : Registry)
    (names : List String) :
    arrow bs (typeReferences r names) =
      if names = [] then ""
      else " &rarr; " ++ (if bs = [] then "" else "(" ++ ", ".intercalate bs ++ ") ") ++
        "\x7b" ++ "|".intercalate (names.map (typeHtml r)) ++ "\x7d" := by
  rw [arrow, alternatives_typeReferences, parenthesized_of_badgesOf h]
  cases names with
  | nil => rfl
  | cons name names => rfl

/-- When its results are appended to the signature of a doclet, nothing else of it changes,
and the signature so far stands in a span of its own.  The second span is empty if the
results have no types.  Otherwise it shows all badges of the results, each of them once and
in the order in which they are met, which makes one list only, and something for each of
their type names.  There is a warning for every type name, again in their order, that is
looked up in vain. -/
theorem addReturns_assembled (r : Registry) (d : Doclet) (context : String) :
    ∃ ps bs, (d.yields ≠ [] ∧ ps = d.yields ∨ d.yields = [] ∧ ps = d.returns) ∧
      BadgesOf ps bs ∧ (∀ bs', BadgesOf ps bs' → bs' = bs) ∧
      addReturns r d = { d with signature := some (
        "<span class=\"signature\">" ++ d.signature.getD "" ++ "</span>" ++
        ("<span class=\"type-signature\">" ++
          (if resultTypes ps = [] then ""
          else " &rarr; " ++ (if bs = [] then "" else "(" ++ ", ".intercalate bs ++ ") ") ++
            "\x7b" ++ "|".intercalate ((resultTypes ps).map (typeHtml r)) ++ "\x7d") ++
          "</span>")) } ∧
      warnings context (resultReferences r d) =
        ((resultTypes ps).filter (Reference.IsUnknown r ·)).map fun name =>
          .unknownLink (Reference.targetName name) context := by
  have hbadges : BadgesOf (results d) (resultBadges (results d)) := resultBadges_eq_iff.1 rfl
  refine ⟨results d, resultBadges (results d), results_cases d, hbadges,
    fun bs' h => h.unique hbadges, ?_, ?_⟩
  · rw [← arrow_typeReferences hbadges, ← resultReferences_eq]
    rfl
  · rw [resultReferences_eq, warnings_typeReferences]

/-- The type `any` is worth no warning, although it is no literal value, no absolute link and
not registered. -/
theorem any_unreported :
    let r := Registry.new
    let d : Doclet :=
      { longname := "f", name := some "f", kind := .function
        returns := [{ type := some { names := ["any"] } }] }
    warnings "f" (resultReferences r d) ≠
      ((resultTypes (results d)).filter fun name => name ∉ Reference.literals ∧
        Reference.isAbsolute (Reference.targetName name) = false ∧
          r.resolve? (Reference.targetName name) = none).map fun name =>
        .unknownLink (Reference.targetName name) "f" := by
  decide +kernel

end Results

end Signature
end DocLinks
