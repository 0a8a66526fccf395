import DocLinks.Proofs.LinkedAddresses
import DocLinks.Proofs.TicketGrammar

/-!
# Markers that are read back

Expansion writes members and tickets as markers, and the tags of a text are replaced by
references.  A marker that was written for a target and a text is one tag, and its parts are
this target and this text, if neither of them has a character at which the marker ends or its
body is divided.

**Results.**
* `cut_write`: such a marker is one tag.
* `reference_write`: it refers to its target, and shows its text.
* `Marker.unbroken_of_member?`, `Ticket.unbroken_of_finds`: members and tickets have no such
  characters.
* `Segment.written_read_back`: so the markers of members and tickets are read as they are
  meant.
-/

namespace DocLinks

namespace Text

/-- Blanks at the end of a text stay where something follows them. -/
theorem trimEnd_append_of_tight {s t : List Char} (hne : t ≠ [])
    (h : ∀ c ∈ t, isBlank c = false) :
    trimEnd (s ++ t) = s ++ t := by
  obtain ⟨front, c, rfl⟩ : ∃ front c, t = front ++ [c] :=
    ⟨_, _, (List.dropLast_concat_getLast hne).symm⟩
  have hc : isBlank c = false := h c (by simp)
  rw [trimEnd, ← List.append_assoc]
  rw [List.reverse_append, List.reverse_singleton]
  rw [List.singleton_append, List.dropWhile_cons_of_neg (by simp [hc])]
  rw [List.reverse_cons, List.reverse_reverse]

end Text

namespace LinkTag

section Writing

/-- A text without the characters at which a marker ends, or at which its body is divided. -/
def Unbroken (s : List Char) : Prop :=
  ∀ c ∈ s, Text.isBlank c = false ∧ c ≠ '|' ∧ c ≠ '}'

variable {target text : List Char}

instance (s : List Char) : Decidable (Unbroken s) :=
  decidable_of_iff (s.all fun c => !Text.isBlank c && c != '|' && c != '}')
    (by simp [Unbroken, and_assoc])

theorem Unbroken.append (h : Unbroken target) (h' : Unbroken text) :
    Unbroken (target ++ text) := by
  intro c hc
  exact (List.mem_append.1 hc).elim (h c) (h' c)

/-- What a marker for a target and a text is as a tag. -/
def ofWritten (target text : List Char) : LinkTag :=
  ⟨none, .default, target ++ ' ' :: text⟩

/-- A marker that was written is one tag. -/
theorem cut_write (htarget : Unbroken target) (htext : Unbroken text) (hne : target ≠ [])
    (hne' : text ≠ []) :
    pattern.cut (Marker.write target (some text)) =
      [.hit (ofWritten target text) (Marker.write target (some text))] := by
  have hbody : '}' ∉ target ++ ' ' :: text := by
    simp only [List.mem_append, List.mem_cons, not_or]
    exact ⟨fun h => (htarget _ h).2.2 rfl, by decide, fun h => (htext _ h).2.2 rfl⟩
  have hread : Marker.read? (Marker.write target (some text)) =
      some (⟨[], target ++ ' ' :: text⟩, []) := by
    refine Marker.read?_eq_some_iff.2 ⟨[], ' ', [], by rw [Marker.write_some]; simp, by simp,
      by simp, by decide, by simp, fun c hc => ?_, hbody⟩
    obtain ⟨d, t, rfl⟩ := List.exists_cons_of_ne_nil hne
    obtain rfl : d = c := by simpa using hc
    exact (htarget d List.mem_cons_self).1
  have hbraces : braces? none (Marker.write target (some text)) =
      some (ofWritten target text, []) := by
    refine braces?_eq_some_iff.2 ⟨_, hread, by simp [ofWritten, styleNames],
      ⟨_, by rw [Marker.write_some]; rfl⟩, rfl, ?_⟩
    have htrim :=
      Text.trimEnd_append_of_tight (s := target ++ [' ']) hne' fun c hc => (htext c hc).1
    simpa [ofWritten] using htrim.symm
  have hfinds : pattern.Finds [] (Marker.write target (some text)) []
      (ofWritten target text) := by
    refine pattern_finds_iff.2 ⟨by rw [Marker.write_some]; simp, ?_⟩
    rw [List.append_nil]
    exact read?_eq_some_iff.2 ⟨_, rfl, by simp [ofWritten], hbraces⟩
  exact Text.Pattern.cut_of_finds hfinds

/-- The body of a marker that was written is divided into its target and its text. -/
theorem splitBody_write (htarget : Unbroken target) (htext : Unbroken text)
    (hne' : text ≠ []) :
    splitBody (target ++ ' ' :: text) = (target, some text) := by
  have hbar : Text.cutAtFirst (· == '|') (target ++ ' ' :: text) = none := by
    refine Text.cutAtFirst_of_not_mem fun c hc => ?_
    rw [List.mem_append, List.mem_cons] at hc
    rcases hc with hc | rfl | hc
    · simpa using (htarget c hc).2.1
    · decide
    · simpa using (htext c hc).2.1
  have hblank : Text.cutAtFirst Text.isBlank (target ++ ' ' :: text) = some (target, text) :=
    Text.cutAtFirst_append (fun c hc => (htarget c hc).1) (by decide)
  rw [splitBody, hbar, hblank]
  have htrim : Text.trim target = target := Text.trim_of_tight fun c hc => (htarget c hc).1
  have htrim' : Text.trim text = text := Text.trim_of_tight fun c hc => (htext c hc).1
  simp [htrim, htrim', hne']

theorem reference_write (r : Registry) (htarget : Unbroken target) (htext : Unbroken text)
    (hne' : text ≠ []) :
    (ofWritten target text).reference r =
      .ofTarget r (String.ofList target) (some (String.ofList text)) := by
  rw [reference, LinkTag.target, LinkTag.text]
  rw [ofWritten, splitBody_write htarget htext hne']
  rfl

/-- A text is replaced by the reference to a target, which shows a text, and nothing is said
but what is to be said about this reference. -/
def ReadAs (r : Registry) (context : String) (s target text : List Char) : Prop :=
  resolveAll r (String.ofList s) =
      (Reference.ofTarget r (String.ofList target) (some (String.ofList text))).html ∧
    warnings r context (String.ofList s) =
      (Reference.ofTarget r (String.ofList target)
        (some (String.ofList text))).warnings context

/-- A marker that was written is replaced by the reference that it was written for. -/
theorem readAs_write (r : Registry) (context : String) (htarget : Unbroken target)
    (htext : Unbroken text) (hne : target ≠ []) (hne' : text ≠ []) :
    ReadAs r context (Marker.write target (some text)) target text := by
  have hcut : cut (String.ofList (Marker.write target (some text))) =
      [.hit (ofWritten target text) (Marker.write target (some text))] := by
    rw [cut, String.toList_ofList, cut_write htarget htext hne hne']
  have hreference := reference_write r htarget htext hne'
  constructor
  · rw [resolveAll, hcut, List.map_singleton]
    rw [pieceHtml, hreference]
    simp
  · rw [warnings, hcut, List.flatMap_singleton]
    rw [pieceWarnings, hreference]

end Writing

end LinkTag

namespace Marker

/-- Neither words nor the names of members have characters at which a marker ends or is
divided. -/
theorem unbroken_of_isMemberChar {s : List Char} (h : ∀ c ∈ s, isMemberChar c = true) :
    LinkTag.Unbroken s := by
  intro c hc
  have hname := h c hc
  refine ⟨?_, ?_, ?_⟩
  · cases hblank : Text.isBlank c with
    | false => rfl
    | true =>
        have hdollar : c = '$' := by
          simpa [isMemberChar, Text.isWord_of_isBlank hblank] using hname
        rw [hdollar] at hblank
        exact absurd hblank (by decide)
  · rintro rfl
    exact absurd hname (by decide +kernel)
  · rintro rfl
    exact absurd hname (by decide +kernel)

theorem unbroken_of_member? {m : Marker} {k : Member} (h : m.member? = some k) :
    LinkTag.Unbroken k.text := by
  obtain ⟨-, -, -, hseparator, -, hname, -⟩ := member?_eq_some_iff.1 h
  have hsingle : LinkTag.Unbroken [k.separator] := by
    have hseparators : k.separator = '#' ∨ k.separator = '.' := by
      simpa [isSeparator] using hseparator
    intro c hc
    rw [List.mem_singleton.1 hc]
    rcases hseparators with hsep | hsep
    · rw [hsep]
      decide
    · rw [hsep]
      decide
  exact hsingle.append (unbroken_of_isMemberChar hname)

end Marker

namespace Ticket

theorem unbroken_of_finds {mark before u rest digits : List Char}
    (h : (pattern mark).Finds before u rest digits) : LinkTag.Unbroken u := by
  obtain ⟨rfl, -, hmark, -, hdigits, -⟩ := pattern_finds_iff.1 h
  refine Marker.unbroken_of_isMemberChar fun c hc => ?_
  have hword := Text.isWord_of_isAsciiWord (isAsciiWord_of_mem hmark hdigits hc)
  simp [Marker.isMemberChar, hword]

end Ticket

namespace Segment

open LinkTag

/-- The marker that is written for a member in shorthand, or for a ticket, is read back: it
is replaced by the reference to the whole long name, or to the whole address, and shows the
member, or the ticket.  Only the owner of the member, and what the address of the ticket
starts with, are asked to be without the characters at which a marker ends or is divided. -/
theorem written_read_back (r : Registry) (context : String) :
    (∀ m member longname u, Marker.member? m = some member → Unbroken (ownerOf longname) →
      let written := (ofMarker longname (.hit m u)).written
      written = "\x7b@link ".toList ++ (ownerOf longname ++ member.text) ++ [' '] ++
      member.text ++ ['}'] ∧
        ReadAs r context written (ownerOf longname ++ member.text) member.text) ∧
    ∀ mark before u rest digits baseUrl, (Ticket.pattern mark).Finds before u rest digits →
      Unbroken baseUrl →
      let written := (ofTicket baseUrl (.hit digits u)).written
      written = "\x7b@link ".toList ++ (baseUrl ++ u) ++ [' '] ++ u ++ ['}'] ∧
        ReadAs r context written (baseUrl ++ u) u := by
  constructor
  · intro m member longname u hmember howner
    have hsegment : (ofMarker longname (.hit m u)).written =
        Marker.write (ownerOf longname ++ member.text) (some member.text) := by
      rw [ofMarker, hmember]
      rfl
    have htext := Marker.unbroken_of_member? hmember
    have hne : member.text ≠ [] := List.cons_ne_nil _ _
    rw [hsegment]
    exact ⟨Marker.write_some _ _,
      readAs_write r context (howner.append htext) htext (by simp [hne]) hne⟩
  · intro mark before u rest digits baseUrl hfinds hbase
    have htext := Ticket.unbroken_of_finds hfinds
    exact ⟨Marker.write_some _ _,
      readAs_write r context (hbase.append htext) htext (by simp [hfinds.1]) hfinds.1⟩

/-- The owner of the member has an opening brace and an opening bracket in it. -/
theorem written_read_back_of_braced_owner :
    let r := Registry.new.register "A\x7b[B.run" "A.html#run"
    let owner := ownerOf "A\x7b[B#size".toList
    let member :=
      (ofMarker "A\x7b[B#size".toList
        (.hit ⟨[], ".run ".toList⟩ "\x7b@link .run \x7d".toList)).written
    let ticket := (ofTicket "http://a/".toList (.hit "12".toList "T12".toList)).written
    (Marker.member? ⟨[], ".run ".toList⟩ = some ⟨'.', "run".toList⟩ ∧ Unbroken owner ∧
      member = "\x7b@link A\x7b[B.run .run\x7d".toList ∧
      resolveAll r (String.ofList member) = "<a href=\"A.html#run\">.run</a>") ∧
    (Ticket.pattern ['T']).Finds [] "T12".toList [] "12".toList ∧
    Unbroken "http://a/".toList ∧
      ticket = "\x7b@link http://a/T12 T12\x7d".toList ∧
      resolveAll r (String.ofList ticket) = "<a href=\"http://a/T12\">T12</a>" := by
  intro r owner member ticket
  have hmember : Marker.member? ⟨[], ".run ".toList⟩ =
      some ⟨'.', "run".toList⟩ := by decide +kernel
  have howner : Unbroken owner := by decide +kernel
  have hfinds : (Ticket.pattern ['T']).Finds [] "T12".toList [] "12".toList :=
    Ticket.pattern_finds_iff.2 ⟨rfl, by simp, by simp [Ticket.isCapital], by simp,
      by simp, rfl, rfl⟩
  have hbase : Unbroken "http://a/".toList := by decide +kernel
  obtain ⟨hmembers, htickets⟩ := written_read_back r "A"
  obtain ⟨hwritten, hread, -⟩ := hmembers _ _ _ "\x7b@link .run \x7d".toList hmember howner
  obtain ⟨hwritten', hread', -⟩ := htickets _ _ _ _ _ _ hfinds hbase
  exact ⟨⟨hmember, howner, hwritten.trans (by decide +kernel),
    hread.trans (by decide +kernel)⟩, hfinds,
    hbase, hwritten'.trans (by decide +kernel), hread'.trans (by decide +kernel)⟩

end Segment

end DocLinks
