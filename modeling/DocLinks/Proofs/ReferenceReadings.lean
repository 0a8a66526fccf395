import DocLinks.Proofs.CharacterRuns
import DocLinks.Proofs.ListSteps
import DocLinks.Settings.Load
import Mathlib.Data.List.Infix

/-!
# How texts with dollar signs are read

A configured text may be read in two ways.  The plain reading knows references in braces
only, and keeps all other characters.  The wide reading takes bare names behind a dollar sign
for references too, and two dollar signs for one.

**Algorithm.**  As soon as there is an opening of a reference anywhere in a text, the wide
reading is expanded, from the left.

**Results.**
* `Reads.unique`, `exists_plain`, `exists_wide`: a text has one plain reading, and a wide
  one.
* `Names.braced_eq`: the first separator between braces counts, if there is a name in front
  of it.
* `becomes_iff`: what the parts of a reading become in an environment.
* `expand_of_wide`: a text is expanded to what the parts of its wide reading become.
-/

namespace DocLinks
namespace Environment

/-- What a text is read as, piece by piece: a character that is kept, a reference in braces,
a bare name behind a dollar sign, or two dollar signs that stand for one. -/
inductive Part where
  | kept (c : Char)
  | braced (body : List Char)
  | bare (name : List Char)
  | double
  deriving DecidableEq, Repr

/-- In the plain reading, only references in braces are marks; the first closing brace ends
one. -/
inductive PlainMark : List Char → Part → List Char → Prop
  | braced {body rest : List Char} : '}' ∉ body →
      PlainMark ('$' :: '{' :: (body ++ '}' :: rest)) (.braced body) rest

/-- In the wide reading, there are also bare names, as long as possible, and two dollar
signs. -/
inductive WideMark : List Char → Part → List Char → Prop
  | braced {body rest : List Char} : '}' ∉ body →
      WideMark ('$' :: '{' :: (body ++ '}' :: rest)) (.braced body) rest
  | bare {c : Char} {s : List Char} : isNameChar c = true →
      WideMark ('$' :: c :: s) (.bare (c :: s.takeWhile isNameChar)) (s.dropWhile isNameChar)
  | double {rest : List Char} : WideMark ('$' :: '$' :: rest) .double rest

/-- A text is read from the left: a mark is taken where one starts, and else the character is
kept. -/
inductive Reads (mark : List Char → Part → List Char → Prop) : List Char → List Part → Prop
  | nil : Reads mark [] []
  | mark {s rest : List Char} {part : Part} {ps : List Part} :
      mark s part rest → Reads mark rest ps → Reads mark s (part :: ps)
  | kept {c : Char} {s : List Char} {ps : List Part} :
      (∀ part rest, ¬ mark (c :: s) part rest) → Reads mark s ps →
      Reads mark (c :: s) (.kept c :: ps)

section Readings

variable {s rest rest' body body' : List Char} {part part' : Part} {ps qs ws : List Part}

theorem cutAtFirst_closed (hbody : '}' ∉ body) :
    Text.cutAtFirst (· == '}') (body ++ '}' :: rest) = some (body, rest) := by
  refine Text.cutAtFirst_append (fun c hc => ?_) rfl
  rw [beq_eq_false_iff_ne]
  rintro rfl
  exact hbody hc

theorem eq_of_closed (hbody : '}' ∉ body) (hbody' : '}' ∉ body')
    (h : body ++ '}' :: rest = body' ++ '}' :: rest') : body = body' ∧ rest = rest' := by
  have hcut : Text.cutAtFirst (· == '}') (body ++ '}' :: rest) = some (body, rest) :=
    cutAtFirst_closed hbody
  rw [h, cutAtFirst_closed hbody'] at hcut
  obtain ⟨rfl, rfl⟩ := Prod.mk.inj (Option.some.inj hcut)
  exact ⟨rfl, rfl⟩

theorem PlainMark.unique (h : PlainMark s part rest) (h' : PlainMark s part' rest') :
    part = part' ∧ rest = rest' := by
  cases h with
  | braced hbody =>
      generalize hs : '$' :: '{' :: _ = s at h'
      cases h' with
      | braced hbody' =>
          obtain ⟨rfl, rfl⟩ :=
            eq_of_closed hbody hbody' (List.cons.inj (List.cons.inj hs).2).2
          exact ⟨rfl, rfl⟩

theorem Reads.unique (h : Reads PlainMark s ps) (h' : Reads PlainMark s qs) : ps = qs := by
  induction h generalizing qs with
  | nil => cases h' with
    | nil => rfl
    | mark hmark => cases hmark
  | mark hmark _ ih =>
      cases h' with
      | nil => cases hmark
      | mark hmark' hrest =>
          obtain ⟨rfl, rfl⟩ := hmark.unique hmark'
          rw [ih hrest]
      | kept hnone => exact absurd hmark (hnone _ _)
  | kept hnone _ ih =>
      cases h' with
      | mark hmark => exact absurd hmark (hnone _ _)
      | kept _ hrest => rw [ih hrest]

/-- If marks are not empty, every text can be read. -/
theorem exists_reads {mark : List Char → Part → List Char → Prop}
    (hmark : ∀ {s part rest}, mark s part rest → rest.length < s.length) (s : List Char) :
    ∃ ps, Reads mark s ps := by
  induction hn : s.length using Nat.strong_induction_on generalizing s with
  | _ n ih =>
      by_cases hfound : ∃ part rest, mark s part rest
      · obtain ⟨part, rest, hm⟩ := hfound
        obtain ⟨ps, hps⟩ := ih _ (hn ▸ hmark hm) rest rfl
        exact ⟨_, .mark hm hps⟩
      · cases s with
        | nil => exact ⟨[], .nil⟩
        | cons c s =>
            obtain ⟨ps, hps⟩ := ih s.length (by rw [← hn]; exact Nat.lt_succ_self _) s rfl
            exact ⟨_, .kept (fun part rest hm => hfound ⟨part, rest, hm⟩) hps⟩

theorem exists_plain (s : List Char) : ∃ ps, Reads PlainMark s ps := by
  refine exists_reads (fun h => ?_) s
  cases h
  simp only [List.length_cons, List.length_append]
  omega

theorem exists_wide (s : List Char) : ∃ ps, Reads WideMark s ps := by
  refine exists_reads (fun h => ?_) s
  cases h with
  | braced =>
      simp only [List.length_cons, List.length_append]
      omega
  | @bare c s _ =>
      have hle := (List.dropWhile_suffix isNameChar (l := s)).length_le
      simp only [List.length_cons]
      omega
  | double =>
      simp only [List.length_cons]
      omega

end Readings

section Bodies

/-- What stands between a name and its default. -/
def separator : List Char := [':', '-']

/-- What stands between braces is a name alone, or a name and its default.  The first
separator counts, and only if there is a name in front of it. -/
inductive Names : (body name : List Char) → Option (List Char) → Prop
  | alone {name : List Char} : ¬ separator <:+: name ∨ separator <+: name →
      Names name name none
  | withDefault {name fallback : List Char} : name ≠ [] → ¬ separator <:+: name →
      Names (name ++ (separator ++ fallback)) name (some fallback)

variable {c : Char} {s acc body name fallback : List Char}

theorem splitFallback_cons (h : ¬ separator <+: c :: s) :
    splitFallback acc (c :: s) = splitFallback (c :: acc) s := by
  rw [splitFallback.eq_def]
  split
  · rename_i heq
    rw [heq] at h
    exact absurd (List.prefix_append separator _) h
  · rename_i heq
    obtain ⟨rfl, rfl⟩ := List.cons.inj heq
    rfl
  · rename_i heq
    cases heq

theorem splitFallback_alone (h : ¬ separator <:+: s) :
    splitFallback acc s = (acc.reverse ++ s, none) := by
  induction s generalizing acc with
  | nil => simp [splitFallback]
  | cons c s ih =>
      rw [List.infix_cons_iff, not_or] at h
      rw [splitFallback_cons h.1, ih h.2]
      rw [List.reverse_cons, List.append_assoc]
      rfl

theorem splitFallback_separator (acc s : List Char) :
    splitFallback acc (separator ++ s) = (acc.reverse, some s) := rfl

theorem splitFallback_append (h : ¬ separator <:+: name) :
    splitFallback acc (name ++ (separator ++ fallback)) =
      (acc.reverse ++ name, some fallback) := by
  induction name generalizing acc with
  | nil => rw [List.nil_append, splitFallback_separator, List.append_nil]
  | cons c name ih =>
      rw [List.infix_cons_iff, not_or] at h
      have hfirst : ¬ separator <+: c :: (name ++ (separator ++ fallback)) := by
        rintro ⟨t, ht⟩
        obtain ⟨rfl, hnext⟩ := List.cons.inj ht
        cases name with
        | nil => exact absurd (List.cons.inj hnext).1 (by decide)
        | cons d name =>
            obtain ⟨rfl, -⟩ := List.cons.inj hnext
            exact h.1 ⟨name, rfl⟩
      rw [List.cons_append, splitFallback_cons hfirst, ih h.2]
      rw [List.reverse_cons, List.append_assoc]
      rfl

theorem Names.braced_eq {fallback : Option (List Char)} (h : Names body name fallback) :
    braced body = .valueOf name fallback := by
  cases h with
  | alone hname =>
      rcases hname with hname | ⟨fallback, rfl⟩
      · rw [braced, splitFallback_alone hname]
        rw [List.reverse_nil, List.nil_append]
        cases body <;> rfl
      · rfl
  | withDefault hne hname =>
      rw [braced, splitFallback_append hname]
      rw [List.reverse_nil, List.nil_append]
      cases name with
      | nil => exact absurd rfl hne
      | cons c name => rfl

/-- A text with a separator has a first one. -/
theorem exists_first_separator (h : separator <:+: s) :
    ∃ name fallback, s = name ++ (separator ++ fallback) ∧ ¬ separator <:+: name := by
  induction s with
  | nil => exact absurd (List.infix_nil.1 h) (by decide)
  | cons c s ih =>
      by_cases hfirst : separator <+: c :: s
      · obtain ⟨fallback, hs⟩ := hfirst
        exact ⟨[], fallback, hs.symm, by decide⟩
      · obtain ⟨name, fallback, rfl, hname⟩ :=
          ih ((List.infix_cons_iff.1 h).resolve_left hfirst)
        refine ⟨c :: name, fallback, rfl, fun hin => ?_⟩
        rcases List.infix_cons_iff.1 hin with ⟨t, ht⟩ | hin
        · exact hfirst ⟨t ++ (separator ++ fallback), by rw [← List.append_assoc, ht]; rfl⟩
        · exact hname hin

theorem exists_names (body : List Char) : ∃ name fallback, Names body name fallback := by
  by_cases hfirst : separator <+: body
  · exact ⟨body, none, .alone (.inr hfirst)⟩
  · by_cases hin : separator <:+: body
    · obtain ⟨name, fallback, rfl, hname⟩ := exists_first_separator hin
      refine ⟨name, some fallback, .withDefault ?_ hname⟩
      rintro rfl
      exact hfirst (List.prefix_append _ _)
    · exact ⟨body, none, .alone (.inl hin)⟩

end Bodies

section Values

variable {env : Environment} {part : Part} {ps : List Part} {t body name : List Char}

/-- What a part becomes in an environment. -/
inductive Becomes (env : Environment) : Part → List Char → Prop
  | kept {c : Char} : Becomes env (.kept c) [c]
  | set {body name t : List Char} {fallback : Option (List Char)} :
      Names body name fallback →
      env.lookup? name = some t → Becomes env (.braced body) t
  | unset {body name t : List Char} : Names body name (some t) → env.lookup? name = none →
      Becomes env (.braced body) t
  | bare {name t : List Char} : env.lookup? name = some t → Becomes env (.bare name) t
  | double : Becomes env .double ['$']

/-- What stands between braces has no default, and the variable of its name is not set. -/
def IsUnset (env : Environment) (body : List Char) : Prop :=
  ∃ name, Names body name none ∧ env.lookup? name = none

/-- The text that a part becomes, or the name of the variable that is not set. -/
def Part.value (env : Environment) : Part → Except (List Char) (List Char)
  | .kept c => .ok [c]
  | .braced body => env.value (Environment.braced body)
  | .bare name => env.value (.valueOf name none)
  | .double => env.value .dollar

theorem value_of_set {fallback : Option (List Char)} (h : env.lookup? name = some t) :
    env.value (.valueOf name fallback) = .ok t := by
  simp only [value, h]

theorem value_of_unset (h : env.lookup? name = none) :
    env.value (.valueOf name (some t)) = .ok t := by
  simp only [value, h]

theorem value_of_missing (h : env.lookup? name = none) :
    env.value (.valueOf name none) = .error name := by
  simp only [value, h]

theorem Becomes.value_eq (h : Becomes env part t) : part.value env = .ok t := by
  cases h with
  | kept => rfl
  | set hnames hset => rw [Part.value, hnames.braced_eq, value_of_set hset]
  | unset hnames hunset => rw [Part.value, hnames.braced_eq, value_of_unset hunset]
  | bare hset => exact value_of_set hset
  | double => rfl

/-- A part becomes some text, or it refers to a variable that is not set. -/
theorem becomes_or_missing (env : Environment) (part : Part) :
    (∃ t, Becomes env part t) ∨
      ∃ name, part.value env = .error name ∧ ∀ body, part = .braced body →
      IsUnset env body := by
  cases part with
  | kept c => exact .inl ⟨_, .kept⟩
  | braced body =>
      obtain ⟨name, fallback, hnames⟩ := exists_names body
      cases hlookup : env.lookup? name with
      | some t => exact .inl ⟨t, .set hnames hlookup⟩
      | none =>
          cases fallback with
          | some t => exact .inl ⟨t, .unset hnames hlookup⟩
          | none =>
              refine .inr ⟨name, ?_, ?_⟩
              · rw [Part.value, hnames.braced_eq, value_of_missing hlookup]
              · rintro _ ⟨⟩
                exact ⟨name, hnames, hlookup⟩
  | bare name =>
      cases hlookup : env.lookup? name with
      | some t => exact .inl ⟨t, .bare hlookup⟩
      | none =>
          refine .inr ⟨name, value_of_missing hlookup, ?_⟩
          rintro _ ⟨⟩
  | double => exact .inl ⟨_, .double⟩

theorem becomes_iff : Becomes env part t ↔ part.value env = .ok t := by
  refine ⟨Becomes.value_eq, fun h => ?_⟩
  rcases becomes_or_missing env part with ⟨t', hbecomes⟩ | ⟨name, hmissing, -⟩
  · obtain rfl := Except.ok.inj (h.symm.trans hbecomes.value_eq)
    exact hbecomes
  · rw [hmissing] at h
    cases h

/-- The text that parts become, or the name of the first variable that is not set. -/
def textOf (env : Environment) (ps : List Part) : Except (List Char) (List Char) :=
  (ps.mapM (Part.value env)).map List.flatten

theorem textOf_eq_ok_iff : textOf env ps = .ok t ↔
    ∃ texts, List.Forall₂ (Becomes env) ps texts ∧ texts.flatten = t := by
  have hparts : (fun part t => part.value env = .ok t) = Becomes env :=
    funext fun part => funext fun t => propext becomes_iff.symm
  rw [textOf, map_eq_ok_iff]
  simp only [mapM_eq_ok_iff, hparts]

end Values

section Expansion

variable {env : Environment} {c : Char} {s rest body : List Char}
  {part : Part} {ws : List Part}

/-- A mark of the wide reading is a hit of the pattern that is expanded to its value. -/
theorem exists_hit_of_wideMark (env : Environment) (h : WideMark (c :: s) part rest)
    (before : List Char) :
    ∃ hit, pattern before (c :: s) = some hit ∧ s.drop hit.more = rest ∧
      ∀ u, env.expandPiece (.hit hit.value u) = part.value env := by
  cases h with
  | @braced body rest hbody =>
      refine ⟨⟨braced body, body.length + 2⟩, ?_, ?_, fun u => rfl⟩
      · simp only [pattern, cutAtFirst_closed hbody, Option.map_some]
      · rw [List.drop_succ_cons, List.append_cons]
        exact List.drop_left' (by rw [List.length_append, List.length_singleton])
  | @bare c s hname =>
      refine ⟨⟨.valueOf (c :: s.takeWhile isNameChar) none,
        (s.takeWhile isNameChar).length + 1⟩, ?_, ?_,
        fun u => rfl⟩
      · have hdollar : c ≠ '$' := by
          rintro rfl
          exact absurd hname (by decide)
        have hbrace : c ≠ '{' := by
          rintro rfl
          exact absurd hname (by decide)
        simp [pattern, hname]
      · have hsplit : s.takeWhile isNameChar ++ s.dropWhile isNameChar = s :=
          List.takeWhile_append_dropWhile
        rw [List.drop_succ_cons]
        exact (congrArg _ hsplit.symm).trans List.drop_left
  | double => exact ⟨⟨.dollar, 1⟩, rfl, rfl, fun u => rfl⟩

theorem pattern_eq_none (h : ∀ part rest, ¬ WideMark (c :: s) part rest)
    (before : List Char) :
    pattern before (c :: s) = none := by
  unfold pattern
  split
  · rename_i s' heq
    rw [heq] at h
    cases hcut : Text.cutAtFirst (· == '}') s' with
    | none => rfl
    | some parts =>
        obtain ⟨body, rest⟩ := parts
        obtain ⟨d, hd, rfl, hbody⟩ := Text.cutAtFirst_eq hcut
        obtain rfl : d = '}' := by simpa using hd
        exact absurd (.braced fun hmem => by simpa using hbody _ hmem) (h _ _)
  · rename_i heq
    rw [heq] at h
    exact absurd .double (h _ _)
  · rename_i heq
    rw [heq] at h
    split
    · rename_i hname
      exact absurd (.bare hname) (h _ _)
    · rfl
  · rfl

/-- What a cut of a text is expanded to. -/
def outcome (env : Environment) (pieces : List (Text.Piece Substitution)) :
    Except (List Char) (List Char) :=
  (pieces.mapM env.expandPiece).map List.flatten

theorem mapM_flatten_cons {α : Type} (f : α → Except (List Char) (List Char))
    (a : α) (l : List α) :
    ((a :: l).mapM f).map List.flatten =
      f a >>= fun t => ((l.mapM f).map List.flatten).map (t ++ ·) := by
  rw [List.mapM_cons]
  cases f a with
  | error e => rfl
  | ok t => cases l.mapM f <;> rfl

theorem textOf_cons (env : Environment) (part : Part) (ps : List Part) :
    textOf env (part :: ps) = part.value env >>= fun t => (textOf env ps).map (t ++ ·) :=
  mapM_flatten_cons _ _ _

theorem outcome_hit (env : Environment) (v : Substitution) (u : List Char)
    (pieces : List (Text.Piece Substitution)) : outcome env (.hit v u :: pieces) =
      env.expandPiece (.hit v u) >>= fun t => (outcome env pieces).map (t ++ ·) :=
  mapM_flatten_cons _ _ _

theorem outcome_closeGap (env : Environment) (gap : List Char)
    (pieces : List (Text.Piece Substitution)) :
    outcome env (Text.Pattern.closeGap gap ++ pieces) =
      (outcome env pieces).map (gap.reverse ++ ·) := by
  cases gap with
  | nil => cases h : outcome env pieces <;> simp [Text.Pattern.closeGap, Except.map, h]
  | cons c gap => exact mapM_flatten_cons env.expandPiece _ _

/-- What is left of a text is expanded to what the parts of its wide reading become. -/
theorem outcome_cutFrom (h : Reads WideMark s ws) (before gap : List Char) :
    outcome env (pattern.cutFrom before gap s) = (textOf env ws).map (gap.reverse ++ ·) := by
  induction h generalizing before gap with
  | nil =>
      rw [Text.Pattern.cutFrom, ← List.append_nil (Text.Pattern.closeGap gap)]
      rw [outcome_closeGap]
      rfl
  | @mark s rest part ps hmark _ ih =>
      cases s with
      | nil => cases hmark
      | cons c s =>
          obtain ⟨hit, hpattern, rfl, hvalue⟩ := exists_hit_of_wideMark env hmark before
          rw [Text.Pattern.cutFrom]
          simp only [hpattern]
          rw [outcome_closeGap, outcome_hit, hvalue]
          rw [ih, textOf_cons]
          cases textOf env ps <;> rfl
  | @kept c s ps hnone _ ih =>
      rw [Text.Pattern.cutFrom]
      simp only [pattern_eq_none hnone]
      rw [ih, textOf_cons, List.reverse_cons]
      cases textOf env ps with
      | error name => rfl
      | ok t => exact congrArg Except.ok (List.append_assoc _ _ _)

/-- A text with an opening of a reference is expanded to what the parts of its wide reading
become. -/
theorem expand_of_wide {v : String} (hv : hasReference v.toList = true)
    (h : Reads WideMark v.toList ws) :
    env.expand v = ((textOf env ws).map String.ofList).mapError String.ofList := by
  have hcut : outcome env (pattern.cut v.toList) = textOf env ws := by
    rw [Text.Pattern.cut, outcome_cutFrom h]
    cases textOf env ws <;> rfl
  rw [expand, if_pos hv]
  rw [← hcut, outcome]
  cases (pattern.cut v.toList).mapM env.expandPiece <;> rfl

end Expansion

end Environment
end DocLinks
