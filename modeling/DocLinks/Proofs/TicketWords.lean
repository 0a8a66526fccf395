import Mathlib.Data.List.SplitBy
import DocLinks.Expansion.Segment
import DocLinks.Proofs.MarkerGrammar
import DocLinks.Proofs.TicketGrammar
import DocLinks.Settings.Basic

/-!
# Tickets are words

Cutting a text at its tickets is compared with a scan that takes the text word by word.  The
scan knows nothing of patterns: it splits the text where a word begins or ends, and looks at
every part by itself.

**Algorithm.**  A text is split into its runs of characters of words and of other characters.
A run that is the mark with digits after it becomes a ticket, and all runs between two
tickets become one text.

**Invariant.**  A run of characters of words stands behind no such character, so a ticket
that begins in the run begins with it, and ends with it, since no such character follows the
run either.

**Results.**
* `wordRuns_eq_iff`: the runs of a text are the only parts of it that alternate.
* `cut_eq_ofRuns`: cutting a text at its tickets and scanning it word by word is the same.
* `cutTickets_eq_scan`: the same for settings that are valid, with what is written.
-/

namespace DocLinks
namespace Text

/-- The longest parts of a text that have either only characters of words or none of them. -/
def wordRuns (s : List Char) : List (List Char) :=
  s.splitBy fun a b => isAsciiWord a == isAsciiWord b

/-- Parts of characters of words and parts of other characters by turns. -/
inductive Alternate : (inWord : Bool) → List (List Char) → Prop
  | nil {inWord : Bool} : Alternate inWord []
  | cons {inWord : Bool} {run : List Char} {runs : List (List Char)} :
      run ≠ [] → (∀ c ∈ run, isAsciiWord c = inWord) → Alternate (!inWord) runs →
      Alternate inWord (run :: runs)

section Runs

variable {inWord : Bool} {runs : List (List Char)} {s : List Char}

theorem Alternate.head (h : Alternate inWord runs) :
    ∀ c ∈ runs.flatten.head?, isAsciiWord c = inWord := by
  cases h with
  | nil => simp
  | @cons _ run runs hne hrun _ =>
      obtain ⟨d, run, rfl⟩ := List.exists_cons_of_ne_nil hne
      simpa using hrun d (by simp)

/-- No word begins where none does. -/
theorem Alternate.endsIn_head? (h : Alternate false runs) :
    endsIn isAsciiWord runs.flatten.head? = false := by
  cases hhead : runs.flatten.head? with
  | none => rfl
  | some c => exact h.head c hhead

theorem Alternate.wordRuns_flatten (h : Alternate inWord runs) :
    wordRuns runs.flatten = runs := by
  induction h with
  | nil => rfl
  | @cons inWord run runs hne hrun hruns ih =>
      have hapart : ∀ x ∈ run.getLast?, ∀ y ∈ runs.flatten.head?,
          (isAsciiWord x == isAsciiWord y) = false := by
        intro x hx y hy
        rw [hrun x (List.mem_of_getLast? hx), hruns.head y hy]
        cases inWord <;> rfl
      have hchain : run.IsChain fun a b => (isAsciiWord a == isAsciiWord b) = true := by
        refine List.Pairwise.isChain (List.pairwise_iff_forall_sublist.2
          fun {a b} hsub => ?_)
        rw [hrun a (hsub.subset (by simp)), hrun b (hsub.subset (by simp)), beq_self_eq_true]
      rw [List.flatten_cons, wordRuns]
      rw [List.splitBy_append hapart, List.splitBy_of_isChain hne hchain]
      exact congrArg (run :: ·) ih

/-- Every text has parts that alternate: a character belongs to the part behind it or begins
its own. -/
theorem exists_alternate (s : List Char) :
    ∃ inWord runs, Alternate inWord runs ∧ runs.flatten = s := by
  induction s with
  | nil => exact ⟨false, [], .nil, rfl⟩
  | cons c s ih =>
      obtain ⟨inWord, runs, halt, rfl⟩ := ih
      have halone : ∀ d ∈ [c], isAsciiWord d = isAsciiWord c := by simp
      by_cases hc : isAsciiWord c = inWord
      · subst hc
        cases halt with
        | nil => exact ⟨_, [[c]], .cons (by simp) halone .nil, rfl⟩
        | @cons _ run runs _ hrun hruns =>
            exact ⟨_, (c :: run) :: runs, .cons (by simp) (by simpa using hrun) hruns, rfl⟩
      · have hnot : (!isAsciiWord c) = inWord := (Bool.not_eq_eq_eq_not.2 (Bool.eq_not.2 hc))
        exact ⟨_, [c] :: runs, .cons (by simp) halone (hnot ▸ halt), rfl⟩

/-- The runs of a text are the only parts of it that alternate. -/
theorem wordRuns_eq_iff :
    wordRuns s = runs ↔ runs.flatten = s ∧ ∃ inWord, Alternate inWord runs := by
  constructor
  · rintro rfl
    obtain ⟨inWord, runs, halt, rfl⟩ := exists_alternate s
    rw [halt.wordRuns_flatten]
    exact ⟨rfl, inWord, halt⟩
  · rintro ⟨rfl, inWord, halt⟩
    exact halt.wordRuns_flatten

end Runs

namespace Pattern

variable {α : Type} {p : Pattern α}

/-- Puts a gap in front of pieces. -/
def addGap (x : List Char) : List (Piece α) → List (Piece α)
  | .gap y :: ps => .gap (x ++ y) :: ps
  | ps => .gap x :: ps

theorem Cuts.addGap {before x s rest : List Char} {ps : List (Piece α)} (hne : x ≠ [])
    (hsilent : p.Silent before x (s ++ rest)) (h : p.Cuts (x.reverse ++ before) s rest ps) :
    p.Cuts before (x ++ s) rest (addGap x ps) := by
  cases h with
  | done => exact .gap hne hsilent (by simp) .done
  | @gap _ y s _ ps hy hysilent hmax hrest =>
      rw [← List.append_assoc]
      refine .gap (by simp [hne]) (Silent.append (by simpa using hsilent) hysilent) hmax ?_
      rw [List.reverse_append, List.append_assoc]
      exact hrest
  | hit hfinds hrest => exact .gap hne hsilent (by simp) (.hit hfinds hrest)

end Pattern
end Text

namespace Ticket

/-- A ticket is the mark and at least one digit after it. -/
def IsTicket (mark run : List Char) : Prop :=
  ∃ digits, run = mark ++ digits ∧ digits ≠ [] ∧ ∀ c ∈ digits, c.isDigit = true

theorem isTicket_iff {mark run : List Char} :
    IsTicket mark run ↔
      mark <+: run ∧ run.drop mark.length ≠ [] ∧
      (run.drop mark.length).all Char.isDigit = true := by
  rw [List.all_eq_true]
  constructor
  · rintro ⟨digits, rfl, hne, hdigits⟩
    rw [List.drop_left]
    exact ⟨List.prefix_append _ _, hne, hdigits⟩
  · rintro ⟨⟨digits, rfl⟩, hne, hdigits⟩
    rw [List.drop_left] at hne hdigits
    exact ⟨digits, rfl, hne, hdigits⟩

instance (mark run : List Char) : Decidable (IsTicket mark run) :=
  decidable_of_iff _ isTicket_iff.symm

theorem isCapital_of_isUpper {c : Char} (h : c.isUpper = true) : isCapital c = true := by
  have hbounds : 'A'.val ≤ c.val ∧ c.val ≤ 'Z'.val := of_decide_eq_true h
  simpa [isCapital, Char.le_def] using hbounds

section Words

variable {mark before run rest : List Char}

/-- Where a word stands by itself, only a ticket that is the word begins in it. -/
theorem silent_of_not_isTicket {inWord : Bool}
    (hrun : ∀ c ∈ run, Text.isAsciiWord c = inWord)
    (hbefore : inWord = true → Text.endsIn Text.isAsciiWord before.head? = false)
    (hrest : inWord = true → Text.endsIn Text.isAsciiWord rest.head? = false)
    (hnot : ¬ IsTicket mark run) : (pattern mark).Silent before run rest := by
  intro y z hyz hz
  refine Option.map_eq_none_iff.2 (Option.eq_none_iff_forall_ne_some.2
    fun ⟨digits, rest'⟩ hread => ?_)
  obtain ⟨hsplit, hne, hmark, hdne, hdigits, hleft, hright⟩ := read?_eq_some_iff.1 hread
  have hword := fun c hc => isAsciiWord_of_mem hmark hdigits (c := c) hc
  obtain ⟨d, z, rfl⟩ := List.exists_cons_of_ne_nil hz
  obtain ⟨m, mark, rfl⟩ := List.exists_cons_of_ne_nil hne
  obtain rfl : inWord = true := by
    rw [← hrun d (by simp [hyz]), (List.cons.inj hsplit).1]
    exact hword m (by simp)
  cases hy : y.reverse with
  | cons c w =>
      rw [hy, List.cons_append] at hleft
      rw [List.head?_cons, Text.endsIn] at hleft
      have hc : c ∈ run := by
        rw [hyz]
        exact List.mem_append_left _ (List.mem_reverse.1 (hy ▸ List.mem_cons_self))
      rw [hrun c hc] at hleft
      exact absurd hleft (by simp)
  | nil =>
      obtain rfl : y = [] := List.reverse_eq_nil_iff.1 hy
      obtain ⟨htake, -⟩ := Text.run_of_endsIn hrun (hrest rfl)
      obtain ⟨htake', -⟩ := Text.run_of_endsIn hword hright
      rw [hyz, List.nil_append, hsplit] at htake
      rw [← List.append_assoc, htake'] at htake
      exact hnot ⟨digits, hyz.trans htake.symm, hdne, hdigits⟩

end Words

end Ticket

namespace Segment

/-- Puts running text in front of segments. -/
def addText (s : List Char) : List Segment → List Segment
  | .text t :: segments => .text (s ++ t) :: segments
  | segments => .text s :: segments

theorem flatMap_written_addText (s : List Char) (segments : List Segment) :
    (addText s segments).flatMap written = s ++ segments.flatMap written := by
  unfold addText
  split
  · simp [written]
  · rfl

theorem map_ofTicket_addGap (baseUrl x : List Char) (ps : List (Text.Piece (List Char))) :
    (Text.Pattern.addGap x ps).map (ofTicket baseUrl) =
      addText x (ps.map (ofTicket baseUrl)) := by
  cases ps with
  | nil => rfl
  | cons q ps => cases q <;> rfl

end Segment

namespace TicketLinks

variable (t : TicketLinks)

/-- The segments of runs: those that are tickets, and running text between them. -/
def ofRuns : List (List Char) → List Segment
  | [] => []
  | run :: runs =>
      if Ticket.IsTicket t.mark run then .ticket run t.baseUrl :: ofRuns runs
      else Segment.addText run (ofRuns runs)

/-- What is written for a run: a link if it is a ticket. -/
def writeRun (run : List Char) : List Char :=
  if Ticket.IsTicket t.mark run then
    "\x7b@link ".toList ++ t.baseUrl ++ run ++ [' '] ++ run ++ ['}']
  else run

theorem flatMap_written_ofRuns (runs : List (List Char)) :
    (t.ofRuns runs).flatMap Segment.written = runs.flatMap t.writeRun := by
  induction runs with
  | nil => rfl
  | cons run runs ih =>
      rw [ofRuns, List.flatMap_cons, writeRun]
      by_cases h : Ticket.IsTicket t.mark run
      · rw [if_pos h, if_pos h, List.flatMap_cons]
        rw [ih, Segment.written]
        rw [Marker.write_some, ← List.append_assoc _ _ run]
      · rw [if_neg h, if_neg h]
        rw [Segment.flatMap_written_addText, ih]

section Scan

variable {t} (hne : t.mark ≠ []) (hcapital : ∀ c ∈ t.mark, Ticket.isCapital c = true)

include hne hcapital

/-- The pieces that a text is cut into are told by its runs. -/
theorem exists_cuts_of_alternate (before : List Char) {inWord : Bool}
    {runs : List (List Char)}
    (h : Text.Alternate inWord runs)
    (hbefore : inWord = true → Text.endsIn Text.isAsciiWord before.head? = false) :
    ∃ ps, (Ticket.pattern t.mark).Cuts before runs.flatten [] ps ∧
      ps.map (Segment.ofTicket t.baseUrl) = t.ofRuns runs := by
  induction h generalizing before with
  | nil => exact ⟨[], .done, rfl⟩
  | @cons inWord run runs hrunne hrun hruns ih =>
      have hnext : (!inWord) = true →
          Text.endsIn Text.isAsciiWord (run.reverse ++ before).head? = false := by
        intro hother
        obtain ⟨c, w, hw⟩ := List.exists_cons_of_ne_nil (List.reverse_ne_nil_iff.2 hrunne)
        have hc : c ∈ run := List.mem_reverse.1 (hw ▸ List.mem_cons_self)
        rw [hw, List.cons_append, List.head?_cons]
        rw [Text.endsIn, hrun c hc]
        simpa using hother
      have hrest : inWord = true →
          Text.endsIn Text.isAsciiWord (runs.flatten ++ []).head? = false := by
        rintro rfl
        rw [List.append_nil]
        exact hruns.endsIn_head?
      obtain ⟨ps, hcuts, hps⟩ := ih (run.reverse ++ before) hnext
      rw [ofRuns, List.flatten_cons]
      by_cases hticket : Ticket.IsTicket t.mark run
      · rw [if_pos hticket]
        obtain ⟨digits, rfl, hdne, hdigits⟩ := hticket
        obtain rfl : inWord = true := by
          obtain ⟨d, hd⟩ := List.exists_mem_of_ne_nil _ hdne
          rw [← hrun d (List.mem_append_right _ hd)]
          exact Ticket.isAsciiWord_of_isDigit (hdigits d hd)
        refine ⟨_, .hit (Ticket.pattern_finds_iff.2 ⟨rfl, hne, hcapital, hdne, hdigits,
          hbefore rfl, hrest rfl⟩) hcuts, ?_⟩
        rw [List.map_cons, hps]
        rfl
      · rw [if_neg hticket]
        refine ⟨_, .addGap hrunne
          (Ticket.silent_of_not_isTicket hrun hbefore hrest hticket) hcuts, ?_⟩
        rw [Segment.map_ofTicket_addGap, hps]

/-- Cutting a text at its tickets and scanning it word by word is the same. -/
theorem cut_eq_ofRuns (s : List Char) : t.cut s = t.ofRuns (Text.wordRuns s) := by
  obtain ⟨hflatten, inWord, halt⟩ := Text.wordRuns_eq_iff.1 (Eq.refl (Text.wordRuns s))
  obtain ⟨ps, hcuts, hps⟩ := exists_cuts_of_alternate hne hcapital [] halt fun _ => rfl
  rw [hflatten] at hcuts
  rw [cut, Text.Pattern.cut]
  rw [hcuts.eq_cutFrom, hps]

end Scan

end TicketLinks

namespace Expander

/-- With settings that are valid and links that start like those of the web, the tickets of a
text are those of its words that are the mark with digits after it.  They are linked, and all
other characters are running text and stay where they are.  The words are parts of the text
as long as can be. -/
theorem cutTickets_eq_scan (s : Settings) (hvalid : s.validate = .ok ()) (baseUrl : String)
    (hweb : "http".toList <+: baseUrl.toList) (text : List Char) :
    let e := Expander.new baseUrl s.ticketMark
    let t : TicketLinks := ⟨baseUrl.toList, s.ticketMark.toList⟩
    let runs := Text.wordRuns text
    e.cutTickets text = t.ofRuns runs ∧
      (e.cutTickets text).flatMap Segment.written = runs.flatMap t.writeRun ∧
      runs.flatten = text ∧ ∃ inWord, Text.Alternate inWord runs := by
  intro e t runs
  have hs := Settings.validate_eq_ok_iff.1 hvalid
  have hne : t.mark ≠ [] := fun h => hs.mark_ne (String.toList_eq_nil_iff.1 h)
  have hcapital : ∀ c ∈ t.mark, Ticket.isCapital c = true := fun c hc =>
    Ticket.isCapital_of_isUpper (hs.mark_upper c hc)
  have hcut : e.cutTickets text = t.ofRuns runs := by
    have he : e = { tickets := some t } := if_pos (List.isPrefixOf_iff_prefix.2 hweb)
    rw [he]
    exact TicketLinks.cut_eq_ofRuns hne hcapital text
  refine ⟨hcut, ?_, Text.wordRuns_eq_iff.1 rfl⟩
  rw [hcut, TicketLinks.flatMap_written_ofRuns]

/-- A letter beyond ASCII is no part of a word, but a low line and a small letter are. -/
theorem cutTickets_default :
    ({} : Settings).validate = .ok () ∧ "http".toList <+: "https://example.org/".toList ∧
      (Expander.new "https://example.org/" ({} : Settings).ticketMark).cutTickets
          "caféT5, xT5 T5_ T12".toList =
        [.text "café".toList, .ticket "T5".toList "https://example.org/".toList,
          .text ", xT5 T5_ ".toList,
            .ticket "T12".toList "https://example.org/".toList] := by
  refine ⟨by decide +kernel, by decide +kernel, ?_⟩
  obtain ⟨hcut, -⟩ := cutTickets_eq_scan {} (by decide +kernel) "https://example.org/"
    (by decide +kernel) "caféT5, xT5 T5_ T12".toList
  rw [hcut]
  decide +kernel

end Expander
end DocLinks
