import DocLinks.Proofs.ReferenceReadings

/-!
# Stray dollar signs

A text should be expanded according to its plain reading: references in braces are replaced,
and every other character is kept.  It is the wide reading that is expanded, which differs
from the plain one as soon as a dollar sign stands in front of another one, or of a name,
outside of all references in braces.

**Algorithm.**  To tell the readings apart, every variable that is referred to is set to one
letter.  Up to the first stray dollar sign both readings come to the same characters; there
the plain one keeps the sign.

**Results.**
* `wide_of_plain`: without stray dollar signs the two readings are the same.
* `filled_ne_of_strays`: with one, the two readings come to different texts.
* `exists_environment`: any names but the empty one can be set.
* `expand_faithful_iff`: which texts are expanded according to their plain readings in every
  environment.
* `bare_name_looked_up`: a name behind a dollar sign is taken for a reference next to one in
  braces.
-/

namespace DocLinks
namespace Environment

section Agreement

variable {c : Char} {s rest : List Char} {part : Part} {ps ws : List Part}

/-- The character that a part starts with. -/
def Part.first : Part → Char
  | .kept c => c
  | _ => '$'

/-- A dollar sign is kept in front of another one, or of a character of names. -/
def Strays (ps : List Part) : Prop :=
  ∃ part, [.kept '$', part] <:+: ps ∧ (part.first = '$' ∨ isNameChar part.first = true)

theorem Strays.cons (h : Strays ps) (part : Part) : Strays (part :: ps) := by
  obtain ⟨next, hin, hnext⟩ := h
  exact ⟨next, List.infix_cons hin, hnext⟩

theorem PlainMark.wide (h : PlainMark s part rest) : WideMark s part rest := by
  cases h with
  | braced hbody => exact .braced hbody

theorem PlainMark.eq_of_wide {part' : Part} {rest' : List Char} (h : PlainMark s part rest)
    (h' : WideMark s part' rest') : part = part' ∧ rest = rest' := by
  cases h with
  | braced hbody =>
      generalize hs : '$' :: '{' :: _ = s at h'
      cases h' with
      | braced hbody' => exact (PlainMark.braced hbody).unique (hs ▸ .braced hbody')
      | bare hname =>
          obtain ⟨rfl, -⟩ := List.cons.inj (List.cons.inj hs).2
          exact absurd hname (by decide)
      | double => exact absurd (List.cons.inj (List.cons.inj hs).2).1 (by decide)

theorem exists_first (h : Reads PlainMark (c :: s) ps) :
    ∃ part qs, ps = part :: qs ∧ part.first = c := by
  cases h with
  | mark hmark =>
      cases hmark with
      | braced => exact ⟨_, _, rfl, rfl⟩
  | kept => exact ⟨_, _, rfl, rfl⟩

theorem exists_eq_cons (h : Reads PlainMark s (part :: ps)) : ∃ t, s = part.first :: t := by
  cases h with
  | mark hmark =>
      cases hmark with
      | braced => exact ⟨_, rfl⟩
  | kept => exact ⟨_, rfl⟩

/-- In front of a dollar sign or a character of names, a dollar sign that is kept is a stray
one. -/
theorem strays_of_reads (h : Reads PlainMark (c :: s) ps)
    (hc : c = '$' ∨ isNameChar c = true) :
    Strays (.kept '$' :: ps) := by
  obtain ⟨part, qs, rfl, rfl⟩ := exists_first h
  exact ⟨part, ⟨[], qs, rfl⟩, hc⟩

/-- Without stray dollar signs the two readings are the same. -/
theorem wide_of_plain (h : Reads PlainMark s ps) (hstrays : ¬ Strays ps) :
    Reads WideMark s ps := by
  induction h with
  | nil => exact .nil
  | mark hmark _ ih => exact .mark hmark.wide (ih fun h => hstrays (h.cons _))
  | kept hnone hrest ih =>
      refine .kept (fun part rest hwide => ?_) (ih fun h => hstrays (h.cons _))
      cases hwide with
      | braced hbody => exact hnone _ _ (.braced hbody)
      | bare hname => exact hstrays (strays_of_reads hrest (.inr hname))
      | double => exact hstrays (strays_of_reads hrest (.inl rfl))

theorem occursIn_iff {needle : List Char} :
    Text.occursIn needle s = true ↔ needle <:+: s := by
  induction s with
  | nil => simp [Text.occursIn]
  | cons c s ih =>
      rw [Text.occursIn, Bool.or_eq_true, List.isPrefixOf_iff_prefix, ih,
        List.infix_cons_iff]

/-- A text without an opening of a reference is read as its characters. -/
theorem reads_kept (h : ¬ ['$', '{'] <:+: s) : Reads PlainMark s (s.map .kept) := by
  induction s with
  | nil => exact .nil
  | cons c s ih =>
      refine .kept (fun part rest hmark => h ?_) (ih fun hin => h (List.infix_cons hin))
      cases hmark with
      | braced => exact ⟨[], _, rfl⟩

end Agreement

section Divergence

variable {c : Char} {s rest : List Char} {part : Part} {ps ws : List Part}

/-- What a part becomes if every variable that is referred to is set to one letter. -/
def Part.filled : Part → List Char
  | .kept c => [c]
  | .double => ['$']
  | _ => ['x']

theorem filled_kept (c : Char) : (Part.kept c).filled = [c] := rfl

theorem replicate_append_cons (k : Nat) (c : Char) (t : List Char) :
    List.replicate k c ++ c :: t = c :: (List.replicate k c ++ t) := by
  rw [List.append_cons, ← List.replicate_succ']
  rw [List.replicate_succ, List.cons_append]

/-- Behind some dollar signs, the plain reading of one more comes to another text than the
wide reading of the rest: it keeps all dollar signs in a row, of which the wide one leaves
half. -/
theorem filled_ne_dollars (hw : Reads WideMark s ws)
    (hp : Reads PlainMark ('$' :: s) ps) (k : Nat) :
    ws.flatMap Part.filled ≠ List.replicate k '$' ++ ps.flatMap Part.filled := by
  induction hn : s.length using Nat.strong_induction_on generalizing s ws ps k with
  | _ n ih =>
      intro heq
      cases hp with
      | mark hmark =>
          cases hmark with
          | braced =>
              cases hw with
              | mark hwide => cases hwide
              | kept => cases k <;> cases heq
      | kept _ hrest =>
          rw [List.flatMap_cons, filled_kept] at heq
          rw [List.singleton_append, replicate_append_cons] at heq
          cases hw with
          | nil => cases heq
          | mark hwide hw =>
              cases hwide with
              | braced => cases heq
              | bare => cases heq
              | @double rest =>
                  cases hrest with
                  | mark hmark => cases hmark
                  | kept _ hrest =>
                      have htail :=
                        (List.cons.inj heq).2.trans (replicate_append_cons k '$' _)
                      refine ih _ ?_ hw hrest (k + 1) rfl htail
                      rw [← hn, List.length_cons, List.length_cons]
                      omega
          | @kept c s _ _ hw =>
              obtain rfl := (List.cons.inj heq).1
              refine ih s.length ?_ hw hrest k rfl (List.cons.inj heq).2
              rw [← hn, List.length_cons]
              exact Nat.lt_succ_self _

/-- With a stray dollar sign, the two readings come to different texts. -/
theorem filled_ne_of_strays (hp : Reads PlainMark s ps) (hw : Reads WideMark s ws)
    (hstrays : Strays ps) :
    ws.flatMap Part.filled ≠ ps.flatMap Part.filled := by
  induction hp generalizing ws with
  | nil =>
      obtain ⟨part, hin, -⟩ := hstrays
      cases List.infix_nil.1 hin
  | @mark s rest part ps hmark _ ih =>
      have htail : Strays ps := by
        obtain ⟨next, hin, hnext⟩ := hstrays
        rcases List.infix_cons_iff.1 hin with hfirst | hin
        · cases hmark with
          | braced => cases (List.cons_prefix_cons.1 hfirst).1
        · exact ⟨next, hin, hnext⟩
      cases hw with
      | nil => cases hmark
      | mark hwide hw =>
          obtain ⟨rfl, rfl⟩ := hmark.eq_of_wide hwide
          exact fun heq => ih hw htail (List.append_cancel_left heq)
      | kept hnone => exact absurd hmark.wide (hnone _ _)
  | @kept c s ps hnone hp ih =>
      intro heq
      cases hw with
      | mark hwide hw =>
          cases hwide with
          | braced hbody => exact hnone _ _ (.braced hbody)
          | bare => cases heq
          | double => exact filled_ne_dollars hw hp 0 (List.cons.inj heq).2
      | kept hnone hw =>
          obtain ⟨next, hin, hnext⟩ := hstrays
          rcases List.infix_cons_iff.1 hin with hfirst | hin
          · obtain ⟨hc, qs, hqs⟩ := List.cons_prefix_cons.1 hfirst
            obtain rfl := Part.kept.inj hc
            obtain ⟨t, rfl⟩ := exists_eq_cons (hqs ▸ hp)
            rcases hnext with hdollar | hname
            · rw [hdollar] at hnone
              exact hnone _ _ .double
            · exact hnone _ _ (.bare hname)
          · exact ih hw ⟨next, hin, hnext⟩ (List.cons.inj heq).2

end Divergence

section Settable

variable {env : Environment} {names : List (List Char)} {part : Part} {ps : List Part}
  {name body : List Char}

/-- An entry for a name that is not longer gives this name no other value. -/
theorem after?_of_length_le {key rest : List Char} (hle : key.length ≤ name.length)
    (h : Text.after? (name ++ ['=']) (key ++ ['=', 'x']) = some rest) : rest = ['x'] := by
  have hsplit := Text.eq_append_of_after? h
  rw [List.append_assoc, List.singleton_append] at hsplit
  obtain ⟨w, rfl⟩ : key <+: name := List.prefix_of_prefix_length_le
    (List.prefix_append key _) (hsplit ▸ List.prefix_append name _) hle
  rw [List.append_assoc] at hsplit
  have htail := List.append_cancel_left hsplit
  rcases w with _ | ⟨c, _ | ⟨d, w⟩⟩ <;> simp_all

/-- In an environment in which shorter names come first, every name has its own entry. -/
theorem lookup?_of_pairwise (hsorted : names.Pairwise fun a b => a.length ≤ b.length)
    (hmem : name ∈ names)
    (hne : name ≠ []) :
    lookup? ⟨names.map fun n => (String.ofList n, "x")⟩ name = some ['x'] := by
  have hvalue : "x".toList = ['x'] := rfl
  rw [lookup?, if_neg (by simpa using hne)]
  induction names with
  | nil => cases hmem
  | cons n names ih =>
      obtain ⟨hle, hsorted⟩ := List.pairwise_cons.1 hsorted
      simp only [List.map_cons, List.findSome?_cons, String.toList_ofList, hvalue]
      split
      · rename_i rest hafter
        refine congrArg some (after?_of_length_le ?_ hafter)
        rcases List.mem_cons.1 hmem with rfl | hmem
        · exact Nat.le_refl _
        · exact hle _ hmem
      · rename_i hnone
        rcases List.mem_cons.1 hmem with rfl | hmem
        · have hsome := Text.after?_append (name ++ ['=']) ['x']
          rw [List.append_assoc, List.singleton_append] at hsome
          rw [hsome] at hnone
          cases hnone
        · exact ih hsorted hmem

/-- Any names but the empty one can be set. -/
theorem exists_environment (names : List (List Char)) :
    ∃ env : Environment, ∀ name ∈ names, name ≠ [] → env.lookup? name = some ['x'] := by
  have hsorted : (names.mergeSort fun a b => decide (a.length ≤ b.length)).Pairwise
      fun a b => a.length ≤ b.length :=
    pairwise_mergeSort_decide (fun a b => a.length ≤ b.length) (fun _ _ _ => Nat.le_trans)
      (fun a b => Nat.le_total a.length b.length) names
  exact ⟨_, fun name hmem hne => lookup?_of_pairwise hsorted (List.mem_mergeSort.2 hmem) hne⟩

/-- The name of the variable that a part refers to. -/
def Part.name? : Part → Option (List Char)
  | .braced body =>
      match Environment.braced body with
      | .valueOf name _ => some name
      | .dollar => none
  | .bare name => some name
  | _ => none

/-- If the variables that parts refer to are set to one letter, the parts become what they
are filled with. -/
theorem becomes_filled (h : ∀ name ∈ part.name?, env.lookup? name = some ['x']) :
    Becomes env part part.filled := by
  cases part with
  | kept c => exact .kept
  | braced body =>
      obtain ⟨name, fallback, hnames⟩ := exists_names body
      refine .set hnames (h name ?_)
      rw [Part.name?, hnames.braced_eq]
      rfl
  | bare name => exact .bare (h name rfl)
  | double => exact .double

end Settable

section Faithfulness

variable {env : Environment} {setting : ExpandedSetting} {v : String}
  {s t body : List Char} {part : Part}
  {ps ws : List Part}

/-- A text is expanded according to its plain reading.  What it is expanded to has the values
and defaults of its references in their places and all else as it was, and it is refused only
if one of its references has no default and names a variable that is not set. -/
structure Faithful (env : Environment) (setting : ExpandedSetting) (v : String)
    (ps : List Part) : Prop where
  replaced : ∀ r, Settings.expandText env setting v = .ok r →
    ∃ texts, List.Forall₂ (Becomes env) ps texts ∧ r.toList = texts.flatten
  unset : ∀ e, Settings.expandText env setting v = .error e →
  ∃ body, .braced body ∈ ps ∧ IsUnset env body

theorem expandText_of_wide (env : Environment) (setting : ExpandedSetting)
    (hv : hasReference v.toList = true) (h : Reads WideMark v.toList ws) :
    Settings.expandText env setting v =
      ((textOf env ws).map String.ofList).mapError fun name =>
        .unset setting (String.ofList name) := by
  rw [Settings.expandText, expand_of_wide hv h]
  cases textOf env ws <;> rfl

theorem kept_or_braced (h : Reads PlainMark s ps) (hmem : part ∈ ps) :
    (∃ c, part = .kept c) ∨ ∃ body, part = .braced body := by
  induction h with
  | nil => cases hmem
  | mark hmark _ ih =>
      cases hmark with
      | braced =>
          rcases List.mem_cons.1 hmem with rfl | hmem
          · exact .inr ⟨_, rfl⟩
          · exact ih hmem
  | kept _ _ ih =>
      rcases List.mem_cons.1 hmem with rfl | hmem
      · exact .inl ⟨_, rfl⟩
      · exact ih hmem

theorem ne_bare_nil (h : Reads WideMark s ws) (hmem : part ∈ ws) : part ≠ .bare [] := by
  induction h with
  | nil => cases hmem
  | mark hmark _ ih =>
      rcases List.mem_cons.1 hmem with rfl | hmem
      · cases hmark <;> nofun
      · exact ih hmem
  | kept _ _ ih =>
      rcases List.mem_cons.1 hmem with rfl | hmem
      · nofun
      · exact ih hmem

/-- If the parts of a plain reading do not all become texts, one of its references is
unset. -/
theorem exists_unset {name : List Char} (h : Reads PlainMark s ps)
    (htext : textOf env ps = .error name) :
    ∃ body, .braced body ∈ ps ∧ IsUnset env body := by
  by_contra hnone
  have hall : ∀ part ∈ ps, ∃ t, part.value env = .ok t ∧ True := by
    intro part hmem
    rcases becomes_or_missing env part with ⟨t, hbecomes⟩ | ⟨name, hmissing, hunset⟩
    · exact ⟨t, hbecomes.value_eq, trivial⟩
    · rcases kept_or_braced h hmem with ⟨c, rfl⟩ | ⟨body, rfl⟩
      · exact ⟨_, rfl, trivial⟩
      · exact absurd ⟨body, hmem, hunset body rfl⟩ hnone
  obtain ⟨texts, htexts, -⟩ := mapM_forall₂ hall
  rw [textOf, htexts] at htext
  cases htext

/-- Nothing between braces is the name of no variable. -/
theorem not_becomes_braced_nil (env : Environment) (t : List Char) :
    ¬ Becomes env (.braced []) t := by
  rw [becomes_iff, Part.value]
  intro h
  cases h

theorem textOf_ne_ok_of_braced_nil (hmem : .braced [] ∈ ps) : textOf env ps ≠ .ok t := by
  intro htext
  obtain ⟨texts, htexts, -⟩ := textOf_eq_ok_iff.1 htext
  obtain ⟨t, -, hbecomes⟩ := exists_of_forall₂ htexts hmem
  exact not_becomes_braced_nil env t hbecomes

/-- What refers to the variable without a name has nothing between its braces. -/
theorem eq_braced_nil (hname : part.name? = some []) (hbare : part ≠ .bare []) :
    part = .braced [] := by
  cases part with
  | kept c => cases hname
  | braced body =>
      obtain ⟨name, fallback, hnames⟩ := exists_names body
      rw [Part.name?, hnames.braced_eq] at hname
      obtain rfl := Option.some.inj hname
      cases hnames with
      | alone => rfl
      | withDefault hne => exact absurd rfl hne
  | bare name => exact absurd (congrArg Part.bare (Option.some.inj hname)) hbare
  | double => cases hname

/-- If every name but the empty one is set to one letter, parts become what they are filled
with. -/
theorem textOf_filled (hset : ∀ part ∈ ps, ∀ name ∈ part.name?, name ≠ [] →
    env.lookup? name = some ['x'])
    (hnil : .braced [] ∉ ps) (hbare : .bare [] ∉ ps) :
    textOf env ps = .ok (ps.flatMap Part.filled) := by
  refine textOf_eq_ok_iff.2 ⟨ps.map Part.filled, ?_, List.flatMap_def.symm⟩
  rw [List.forall₂_map_right_iff, List.forall₂_same]
  refine fun part hmem => becomes_filled fun name hname => hset part hmem name hname ?_
  rintro rfl
  exact hnil (eq_braced_nil hname (fun heq => hbare (heq ▸ hmem)) ▸ hmem)

/-- A text without an opening of a reference is kept, and its characters are its plain
reading. -/
theorem faithful_of_not_infix (hv : ¬ ['$', '{'] <:+: v.toList)
    (h : Reads PlainMark v.toList ps) :
    Faithful env setting v ps := by
  have hnone : hasReference v.toList = false := by
    rw [hasReference, ← Bool.not_eq_true, occursIn_iff]
    exact hv
  have hsame : Settings.expandText env setting v = .ok v := by
    rw [Settings.expandText, expand_of_not_occursIn env hnone]
    rfl
  obtain rfl := h.unique (reads_kept hv)
  refine ⟨fun r hr => ⟨v.toList.map fun c => [c], ?_, ?_⟩, fun e he => ?_⟩
  · rw [List.forall₂_map_left_iff, List.forall₂_map_right_iff, List.forall₂_same]
    exact fun c _ => .kept
  · obtain rfl := Except.ok.inj (hsame.symm.trans hr)
    rw [← List.flatMap_def, List.flatMap_singleton']
  · rw [hsame] at he
    cases he

/-- If the wide reading is the plain one, a text is expanded according to it. -/
theorem faithful_of_wide (h : Reads PlainMark v.toList ps)
    (hwide : Reads WideMark v.toList ps) :
    Faithful env setting v ps := by
  by_cases hv : hasReference v.toList = true
  · have htext := expandText_of_wide env setting hv hwide
    refine ⟨fun r hr => ?_, fun e he => ?_⟩
    · rw [htext] at hr
      cases hparts : textOf env ps with
      | error name =>
          rw [hparts] at hr
          cases hr
      | ok t =>
          rw [hparts] at hr
          obtain rfl := Except.ok.inj hr
          obtain ⟨texts, htexts, rfl⟩ := textOf_eq_ok_iff.1 hparts
          exact ⟨texts, htexts, String.toList_ofList⟩
    · cases hparts : textOf env ps with
      | error name => exact exists_unset h hparts
      | ok t =>
          rw [htext, hparts] at he
          cases he
  · exact faithful_of_not_infix (fun hin => hv (occursIn_iff.2 hin)) h

/-- A text that cannot be expanded in either reading is refused, as its plain reading asks
for. -/
theorem faithful_of_braced_nil (hv : hasReference v.toList = true) (hplain : .braced [] ∈ ps)
    (hwide : Reads WideMark v.toList ws) (hnil : .braced [] ∈ ws) :
    Faithful env setting v ps := by
  refine ⟨fun r hr => ?_, fun e _ => ⟨[], hplain, [], .alone (.inl (by decide)), rfl⟩⟩
  rw [expandText_of_wide env setting hv hwide] at hr
  cases hparts : textOf env ws with
  | error name =>
      rw [hparts] at hr
      cases hr
  | ok t => exact absurd hparts (textOf_ne_ok_of_braced_nil hnil)

/-- With a stray dollar sign, there is an environment in which a text is not expanded
according to its plain reading, unless it cannot be expanded at all. -/
theorem exists_not_faithful (setting : ExpandedSetting) (hv : hasReference v.toList = true)
    (hplain : Reads PlainMark v.toList ps) (hwide : Reads WideMark v.toList ws)
    (hstrays : Strays ps)
    (hnil : ¬(.braced [] ∈ ps ∧ .braced [] ∈ ws)) : ∃ env, ¬ Faithful env setting v ps := by
  obtain ⟨env, hset⟩ := exists_environment ((ps ++ ws).filterMap Part.name?)
  have hparts : ∀ part ∈ ps ++ ws, ∀ name ∈ part.name?, name ≠ [] →
      env.lookup? name = some ['x'] :=
    fun part hmem name hname => hset name (List.mem_filterMap.2 ⟨part, hmem, hname⟩)
  have hbare : .bare [] ∉ ps := by
    intro hmem
    rcases kept_or_braced hplain hmem with ⟨c, hc⟩ | ⟨body, hbody⟩
    · cases hc
    · cases hbody
  have hps := fun part hmem => hparts part (List.mem_append_left ws hmem)
  have hws := fun part hmem => hparts part (List.mem_append_right ps hmem)
  have hexpand := expandText_of_wide env setting hv hwide
  refine ⟨env, fun hfaithful => ?_⟩
  by_cases hnilWide : .braced [] ∈ ws
  · -- the wide reading cannot be expanded, but every reference of the plain one can
    cases htext : textOf env ws with
    | ok t => exact textOf_ne_ok_of_braced_nil hnilWide htext
    | error name =>
        rw [htext] at hexpand
        obtain ⟨body, hmem, name, hnames, hunset⟩ := hfaithful.unset _ hexpand
        have hname : (Part.braced body).name? = some name := by
          rw [Part.name?, hnames.braced_eq]
        have hne : name ≠ [] := by
          rintro rfl
          exact hnil ⟨eq_braced_nil hname nofun ▸ hmem, hnilWide⟩
        rw [hps _ hmem name hname hne] at hunset
        cases hunset
  · have htext := textOf_filled hws hnilWide fun hmem => ne_bare_nil hwide hmem rfl
    rw [htext] at hexpand
    obtain ⟨texts, htexts, hflat⟩ := hfaithful.replaced _ hexpand
    have hplainText := textOf_eq_ok_iff.2 ⟨texts, htexts, hflat.symm⟩
    have hnilPlain : .braced [] ∉ ps :=
      fun hmem => textOf_ne_ok_of_braced_nil hmem hplainText
    rw [textOf_filled hps hnilPlain hbare, String.toList_ofList] at hplainText
    exact filled_ne_of_strays hplain hwide hstrays (Except.ok.inj hplainText).symm

/-- A text has one plain reading.  It is expanded according to it in every environment if and
only if there is no opening of a reference in it, or no stray dollar sign among the
characters that are kept, or it can be expanded in no environment since both readings ask for
the variable without a name. -/
theorem expand_faithful_iff (v : String) :
    ∃ ps, (∀ qs, Reads PlainMark v.toList qs ↔ qs = ps) ∧
    ((∀ env setting, Faithful env setting v ps) ↔
      ¬ ['$', '{'] <:+: v.toList ∨ ¬ Strays ps ∨
        .braced [] ∈ ps ∧ ∃ ws, Reads WideMark v.toList ws ∧ .braced [] ∈ ws) := by
  obtain ⟨ps, hps⟩ := exists_plain v.toList
  obtain ⟨ws, hws⟩ := exists_wide v.toList
  refine ⟨ps, fun qs => ⟨fun hqs => hqs.unique hps, fun heq => heq ▸ hps⟩,
    fun hall => ?_, ?_⟩
  · by_contra hnot
    simp only [not_or, not_not] at hnot
    obtain ⟨hin, hstrays, hnil⟩ := hnot
    obtain ⟨env, hunfaithful⟩ :=
      exists_not_faithful .ticketBaseUrl (occursIn_iff.2 hin) hps hws hstrays
      fun h => hnil ⟨h.1, ws, hws, h.2⟩
    exact hunfaithful (hall env _)
  · rintro (hin | hstrays | ⟨hplain, ws, hwide, hnil⟩) env setting
    · exact faithful_of_not_infix hin hps
    · exact faithful_of_wide hps (wide_of_plain hps hstrays)
    · by_cases hin : ['$', '{'] <:+: v.toList
      · exact faithful_of_braced_nil (occursIn_iff.2 hin) hplain hwide hnil
      · exact faithful_of_not_infix hin hps

/-- Next to a reference in braces, a name behind a dollar sign is taken for a reference
too. -/
theorem bare_name_looked_up :
    let env : Environment := ⟨[("HOST", "http://h")]⟩
    let v := "$\x7bHOST\x7d/$jq"
    ∃ ps, Reads PlainMark v.toList ps ∧ (∀ body, .braced body ∈ ps → ¬ IsUnset env body) ∧
      Settings.expandText env .ticketBaseUrl v = .error (.unset .ticketBaseUrl "jq") ∧
      ¬ Faithful env .ticketBaseUrl v ps := by
  intro env v
  have hbody : '}' ∉ "HOST".toList := by decide
  have hread : Reads PlainMark v.toList
      [.braced "HOST".toList, .kept '/', .kept '$', .kept 'j', .kept 'q'] := by
    have htext : v.toList =
        '$' :: '{' :: ("HOST".toList ++ '}' :: ['/', '$', 'j', 'q']) := by decide
    rw [htext]
    exact .mark (.braced hbody) (.kept nofun (.kept nofun (.kept nofun (.kept nofun .nil))))
  have hexpand : Settings.expandText env .ticketBaseUrl v =
      .error (.unset .ticketBaseUrl "jq") := by
    decide +kernel
  have hset : ∀ body, .braced body ∈ [Part.braced "HOST".toList, .kept '/', .kept '$',
      .kept 'j', .kept 'q'] →
      ¬ IsUnset env body := by
    rintro body hmem ⟨name, hnames, hunset⟩
    obtain rfl : body = "HOST".toList := by simpa using hmem
    have hname : braced "HOST".toList = .valueOf "HOST".toList none := by decide
    obtain ⟨rfl, -⟩ := Substitution.valueOf.inj (hname.symm.trans hnames.braced_eq)
    exact absurd hunset (by decide +kernel)
  refine ⟨_, hread, hset, hexpand, fun hfaithful => ?_⟩
  obtain ⟨body, hmem, hunset⟩ := hfaithful.unset _ hexpand
  exact hset body hmem hunset

end Faithfulness

end Environment
end DocLinks
