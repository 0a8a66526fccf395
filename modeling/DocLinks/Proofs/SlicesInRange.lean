import DocLinks.Proofs.AddressSurroundings
import DocLinks.Proofs.PublishedDoclets
import DocLinks.Proofs.TicketGrammar

/-!
# Publishing never fails

Paths, texts and names are taken apart without indices.  An implementation with indices
slices them, and a slice that is not in range would stop it.  So what takes something apart
is done once more here with slices that are checked, and gives what it gives without them: no
slice is out of range.

**Invariant.**  While a text is sliced, it is what has been sliced already, the gap that is
not yet closed and the rest; the slices end where these do.

**Results.**
* `Pattern.slices?_eq`: a text can be sliced at all hits of a pattern whose hits lie inside
  the text.
* `SourcePath.shorten?_eq`: shared directories can be looked up and sliced off.
* `Registry.fragmentWish?_eq`: the punctuation of a scope can be sliced off.
* `run_succeeds`: publishing succeeds, whatever is published.
-/

namespace DocLinks

/-- The part of a list from one index up to another, if they are in range. -/
def slice? {α : Type} (l : List α) (i j : Nat) : Option (List α) :=
  if i ≤ j ∧ j ≤ l.length then some (l.extract i j) else none

section Checked

variable {α β : Type}

theorem allM_eq_some {f : α → Option Bool} {g : α → Bool} {l : List α}
    (h : ∀ a ∈ l, f a = some (g a)) : l.allM f = some (l.all g) := by
  induction l with
  | nil => rfl
  | cons a l ih =>
      rw [List.allM, h a List.mem_cons_self, List.all_cons]
      cases g a with
      | false => rfl
      | true => exact ih fun b hb => h b (List.mem_cons_of_mem _ hb)

theorem mapM_eq_some {f : α → Option β} {g : α → β} {l : List α}
    (h : ∀ a ∈ l, f a = some (g a)) : l.mapM f = some (l.map g) := by
  induction l with
  | nil => rfl
  | cons a l ih =>
      rw [List.mapM_cons, h a List.mem_cons_self]
      rw [ih fun b hb => h b (List.mem_cons_of_mem _ hb)]
      rfl

end Checked

section Slices

variable {α : Type}

theorem slice?_append (a b c : List α) :
    slice? (a ++ (b ++ c)) a.length (a.length + b.length) = some b := by
  rw [slice?, if_pos ⟨by omega, by simp⟩]
  simp [List.extract_eq_take_drop]

theorem slice?_append_right (a b : List α) :
    slice? (a ++ b) a.length (a ++ b).length = some b := by
  have h := slice?_append a b []
  rwa [List.append_nil, ← List.length_append] at h

theorem slice?_length {l : List α} {i : Nat} (h : i ≤ l.length) :
    slice? l i l.length = some (l.drop i) := by
  rw [slice?, if_pos ⟨h, Nat.le_refl _⟩, List.extract_eq_take_drop]
  rw [← List.length_drop, List.take_length]

end Slices

namespace Text
namespace Pattern

variable {α : Type} (p : Pattern α)

/-- The spans of the hits of a pattern in the rest of a text, which starts at an index, given
what stands before it in reverse order. -/
def spansFrom (before : List Char) (i : Nat) : List Char → List (Nat × Nat)
  | [] => []
  | c :: s =>
      match p before (c :: s) with
      | some h =>
          (i, i + (h.more + 1)) ::
            spansFrom ((s.take h.more).reverse ++ c :: before)
              (i + (h.more + 1)) (s.drop h.more)
      | none => spansFrom (c :: before) (i + 1) s
  termination_by s => s.length
  decreasing_by
    · simp only [List.length_drop, List.length_cons]
      omega
    · simp

/-- A text from an index on, sliced at spans: the gaps that are not empty, and the spans.
What stands before a span is sliced off as well, since it tells what the span means. -/
def sliceAt? (s : List Char) : (last : Nat) → List (Nat × Nat) → Option (List (List Char))
  | last, [] => do
      let gap ← slice? s last s.length
      return if gap.isEmpty then [] else [gap]
  | last, (i, j) :: spans => do
      let gap ← slice? s last i
      let _before ← slice? s 0 i
      let hit ← slice? s i j
      let rest ← sliceAt? s j spans
      return (if gap.isEmpty then [] else [gap]) ++ hit :: rest

/-- A text, sliced at all hits. -/
def slices? (s : List Char) : Option (List (List Char)) :=
  sliceAt? s 0 (p.spansFrom [] 0 s)

variable {p}

theorem map_source_closeGap (gap : List Char) :
    (closeGap gap : List (Piece α)).map Piece.source =
      if gap.reverse.isEmpty then [] else [gap.reverse] := by
  cases gap <;> simp [closeGap, Piece.source]

/-- A text is sliced at a span between a gap and the rest. -/
theorem sliceAt?_cons (front gap hit rest : List Char) (spans : List (Nat × Nat)) :
    sliceAt? (front ++ (gap ++ (hit ++ rest))) front.length
      ((front.length + gap.length, front.length + gap.length + hit.length) :: spans) =
      (sliceAt? (front ++ (gap ++ (hit ++ rest)))
        (front.length + gap.length + hit.length) spans).map
        fun more => (if gap.isEmpty then [] else [gap]) ++ hit :: more := by
  have hgap := slice?_append front gap (hit ++ rest)
  have hbefore : slice? (front ++ (gap ++ (hit ++ rest))) 0 (front.length + gap.length) =
      some (front ++ gap) := by
    simpa using slice?_append [] (front ++ gap) (hit ++ rest)
  have hhit : slice? (front ++ (gap ++ (hit ++ rest))) (front.length + gap.length)
      (front.length + gap.length + hit.length) = some hit := by
    simpa using slice?_append (front ++ gap) hit rest
  simp only [sliceAt?, hgap, hbefore, hhit, Option.bind_eq_bind, Option.bind_some]
  cases sliceAt? (front ++ (gap ++ (hit ++ rest)))
    (front.length + gap.length + hit.length) spans with
  | none => rfl
  | some more => rfl

/-- If hits lie inside the text, slicing at them gives what cutting does. -/
theorem sliceAt?_spansFrom (hp : p.Bounded) (front before gap s : List Char) :
    sliceAt? (front ++ (gap.reverse ++ s)) front.length
      (p.spansFrom before (front.length + gap.reverse.length) s) =
      some ((p.cutFrom before gap s).map Piece.source) := by
  fun_induction p.cutFrom before gap s generalizing front with
  | case1 before gap =>
      rw [spansFrom, sliceAt?, List.append_nil]
      rw [slice?_append_right, map_source_closeGap]
      rfl
  | case2 before gap c s h hhit ih =>
      have hmore : h.more ≤ s.length := Nat.lt_succ_iff.1 (hp before (c :: s) h hhit)
      have hlength : (c :: s.take h.more).length = h.more + 1 := by
        rw [List.length_cons, List.length_take_of_le hmore]
      have htext : gap.reverse ++ c :: s =
          gap.reverse ++ ((c :: s.take h.more) ++ s.drop h.more) := by
        rw [List.cons_append, List.take_append_drop]
      have hspans : p.spansFrom before (front.length + gap.reverse.length) (c :: s) =
          (front.length + gap.reverse.length,
            front.length + gap.reverse.length + (c :: s.take h.more).length) ::
          p.spansFrom ((s.take h.more).reverse ++ c :: before)
            (front.length + gap.reverse.length + (c :: s.take h.more).length)
              (s.drop h.more) := by
        rw [spansFrom, hhit, hlength]
      have hrest := ih (front ++ (gap.reverse ++ (c :: s.take h.more)))
      simp only [List.reverse_nil, List.nil_append, List.append_assoc, List.length_append,
        List.length_nil, Nat.add_zero, ← Nat.add_assoc] at hrest
      rw [hspans, htext, sliceAt?_cons]
      rw [hrest, Option.map_some, List.map_append]
      rw [map_source_closeGap, List.map_cons]
      rfl
  | case3 before gap c s hmiss ih =>
      have hrest := ih front
      rw [List.reverse_cons, List.append_assoc, List.singleton_append] at hrest
      rw [List.length_append, List.length_singleton, ← Nat.add_assoc] at hrest
      rw [spansFrom, hmiss, hrest]

theorem slices?_eq (hp : p.Bounded) (s : List Char) :
    p.slices? s = some ((p.cut s).map Piece.source) :=
  sliceAt?_spansFrom hp [] [] [] s

example : slices? (fun _ _ => some ⟨(), 3⟩) "abc".toList = none := by decide +kernel

end Pattern
end Text

namespace SourcePath

/-- Whether the segment of a path at an index is a directory, and the same as that of the
first path. -/
def sharesAt? (first : List String) (i : Nat) (segments : List String) : Option Bool :=
  if i + 1 < segments.length then do
    let segment ← segments[i]?
    let shared ← first[i]?
    return segment == shared
  else return false

/-- How many of the segments from an index on are shared by all paths, if `more` of them are
looked at. -/
def countShared? (first : List String) (paths : List (List String)) :
    (i more : Nat) → Option Nat
  | _, 0 => return 0
  | i, more + 1 => do
      if ← paths.allM (sharesAt? first i) then
        let rest ← countShared? first paths (i + 1) more
        return rest + 1
      else return 0

/-- How many directories all paths share. -/
def sharedCount? : List (List String) → Option Nat
  | [] => return 0
  | first :: paths => countShared? first (first :: paths) 0 (first.length - 1)

/-- All paths, each with its short form, for which its segments are sliced. -/
def shorten? (paths : List String) : Option (List (String × String)) := do
  let common ← sharedCount? (paths.map segments)
  (paths.zip (paths.map segments)).mapM fun (path, segments) => do
    let rest ← slice? segments common segments.length
    return (path, "/".intercalate rest)

section Shared

theorem commonStartAll_map_cons (x : String) {lists : List (List String)}
    (hne : lists ≠ []) :
    commonStartAll (lists.map (x :: ·)) = x :: commonStartAll lists := by
  induction lists with
  | nil => exact absurd rfl hne
  | cons a rest ih =>
      cases rest with
      | nil => rfl
      | cons b rest =>
          have hrest := ih (by simp)
          simp only [List.map_cons] at hrest ⊢
          rw [commonStartAll, hrest, commonStart]
          rw [if_pos rfl, commonStartAll]

/-- A segment that starts what all lists have in common starts each of them. -/
theorem getElem?_of_commonStartAll {lists : List (List String)} {x : String}
    {rest : List String} {i : Nat}
    (hcommon : commonStartAll (lists.map (List.drop i)) = x :: rest) {l : List String}
    (hl : l ∈ lists) :
    l[i]? = some x := by
  have hstart : x :: rest <+: l.drop i := by
    rw [← hcommon]
    exact commonStartAll_isPrefix (List.mem_map_of_mem hl)
  obtain ⟨more, hmore⟩ := hstart
  rw [← List.head?_drop, ← hmore]
  rfl

theorem commonStartAll_drop_of_length_le {lists : List (List String)} {first : List String}
    (hfirst : first ∈ lists) {i : Nat} (hi : first.length ≤ i) :
    commonStartAll (lists.map (List.drop i)) = [] := by
  cases hcommon : commonStartAll (lists.map (List.drop i)) with
  | nil => rfl
  | cons x rest =>
      have hget := getElem?_of_commonStartAll hcommon hfirst
      rw [List.getElem?_eq_none hi] at hget
      simp at hget

/-- What lists have in common from an index on goes on if they have the same segment
there. -/
theorem length_commonStartAll_drop {lists : List (List String)} {first : List String}
    (hfirst : first ∈ lists) {i : Nat} (hi : i < first.length) :
    (commonStartAll (lists.map (List.drop i))).length =
      if ∀ l ∈ lists, l[i]? = first[i]? then
        (commonStartAll (lists.map (List.drop (i + 1)))).length + 1
      else 0 := by
  split
  · rename_i hshared
    have hdrop : lists.map (List.drop i) =
        (lists.map (List.drop (i + 1))).map (first[i] :: ·) := by
      rw [List.map_map]
      refine List.map_congr_left fun l hl => ?_
      have hget := hshared l hl
      rw [List.getElem?_eq_getElem hi] at hget
      obtain ⟨hlt, hget⟩ := List.getElem?_eq_some_iff.1 hget
      rw [List.drop_eq_getElem_cons hlt, hget]
      rfl
    have hne : lists.map (List.drop (i + 1)) ≠ [] := by simpa using List.ne_nil_of_mem hfirst
    rw [hdrop, commonStartAll_map_cons _ hne, List.length_cons]
  · rename_i hshared
    cases hcommon : commonStartAll (lists.map (List.drop i)) with
    | nil => rfl
    | cons x rest =>
        refine absurd (fun l hl => ?_) hshared
        rw [getElem?_of_commonStartAll hcommon hl, getElem?_of_commonStartAll hcommon hfirst]

theorem sharesAt?_eq {first : List String} {i : Nat} (hi : i < first.dropLast.length)
    (segments : List String) :
    sharesAt? first i segments = some (segments.dropLast[i]? == first.dropLast[i]?) := by
  have hfirst : i + 1 < first.length := by
    rw [List.length_dropLast] at hi
    omega
  have hdropLast (l : List String) (hl : i + 1 < l.length) : l.dropLast[i]? = l[i]? := by
    rw [List.getElem?_dropLast, if_pos (by omega)]
  unfold sharesAt?
  split
  · rename_i hsegments
    rw [hdropLast first hfirst, hdropLast segments hsegments]
    rw [List.getElem?_eq_getElem (Nat.lt_of_succ_lt hsegments)]
    rw [List.getElem?_eq_getElem (Nat.lt_of_succ_lt hfirst)]
    rfl
  · rename_i hsegments
    rw [List.getElem?_eq_none (l := segments.dropLast) (by rw [List.length_dropLast]; omega)]
    rw [List.getElem?_eq_getElem hi]
    rfl

/-- As many segments are counted as all paths share in front of their last segments. -/
theorem countShared?_eq {first : List String} {paths : List (List String)}
    (hfirst : first ∈ paths)
    (more i : Nat) (hi : i + more = first.dropLast.length) :
    countShared? first paths i more =
      some (commonStartAll ((paths.map List.dropLast).map (List.drop i))).length := by
  have hmem : first.dropLast ∈ paths.map List.dropLast := List.mem_map_of_mem hfirst
  induction more generalizing i with
  | zero =>
      rw [commonStartAll_drop_of_length_le hmem (by omega)]
      rfl
  | succ more ih =>
      have hlt : i < first.dropLast.length := by omega
      have hall :=
        allM_eq_some fun segments (_ : segments ∈ paths) => sharesAt?_eq hlt segments
      rw [countShared?, hall, length_commonStartAll_drop hmem hlt]
      rw [Option.bind_eq_bind, Option.bind_some, ih (i + 1) (by omega)]
      simp only [List.all_eq_true, beq_iff_eq, List.forall_mem_map]
      split
      · rfl
      · rfl

theorem sharedCount?_eq (paths : List (List String)) :
    sharedCount? paths = some (commonStartAll (paths.map List.dropLast)).length := by
  cases paths with
  | nil => rfl
  | cons first rest =>
      have hmem : first ∈ first :: rest := List.mem_cons_self
      rw [sharedCount?, countShared?_eq hmem (first.length - 1) 0 (by simp), List.map_map]
      rfl

/-- The segments of a path are sliced behind directories that it has. -/
theorem shorten?_eq (paths : List String) : shorten? paths = some (shorten paths) := by
  have hshared : sharedDirectories paths =
      commonStartAll ((paths.map segments).map List.dropLast) := by
    rw [sharedDirectories, List.map_map]
    rfl
  rw [shorten?, sharedCount?_eq, ← hshared]
  rw [Option.bind_eq_bind, Option.bind_some, ← List.map_prod_left_eq_zip]
  rw [mapM_eq_some (g := fun path =>
    (path.1, "/".intercalate (path.2.drop (sharedDirectories paths).length)))]
  · rw [List.map_map]
    rfl
  · intro path hpath
    obtain ⟨path, hmem, rfl⟩ := List.mem_map.1 hpath
    have hstart : sharedDirectories paths <+: (segments path).dropLast :=
      commonStartAll_isPrefix (List.mem_map_of_mem hmem)
    have hlength : (sharedDirectories paths).length ≤ (segments path).length :=
      Nat.le_trans hstart.length_le (List.dropLast_prefix _).length_le
    simp only [slice?_length hlength]
    rfl

end Shared
end SourcePath

namespace Registry

/-- The fragment that a doclet asks for, for which the punctuation of its scope is sliced
off. -/
def fragmentWish? (d : Doclet) : Option String :=
  let wish := (d.kind.fragmentLead ++ d.name.getD "" ++ d.variation.getD "").toList
  let punctuation := ((d.scope.map Scope.punctuation).getD "").toList
  if !punctuation.isEmpty && punctuation.isPrefixOf wish then do
    let rest ← slice? wish punctuation.length wish.length
    return String.ofList rest
  else return String.ofList wish

theorem getD_after? (lead s : List Char) :
    (Text.after? lead s).getD s = if !lead.isEmpty &&
      lead.isPrefixOf s then s.drop lead.length else s := by
  split
  · rename_i hlead
    obtain ⟨rest, rfl⟩ := List.isPrefixOf_iff_prefix.1 (Bool.and_eq_true_iff.1 hlead).2
    rw [Text.after?_append, List.drop_left]
    rfl
  · rename_i hlead
    cases hafter : Text.after? lead s with
    | none => rfl
    | some rest =>
        obtain rfl := Text.eq_append_of_after? hafter
        have hempty : lead = [] := by simpa using hlead
        rw [hempty]
        rfl

/-- Punctuation is sliced off what starts with it. -/
theorem fragmentWish?_eq (d : Doclet) : fragmentWish? d = some (fragmentWish d) := by
  unfold fragmentWish? fragmentWish
  dsimp only
  rw [getD_after?]
  split
  · rename_i hlead
    have hstart := List.isPrefixOf_iff_prefix.1 (Bool.and_eq_true_iff.1 hlead).2
    rw [slice?_length hstart.length_le]
    rfl
  · rfl

end Registry

namespace Publication

/-- Publishing succeeds, whatever is published: no link is missing.  Every doclet that is not
pruned is published, and no slice of a path, of a fragment or of a text is out of range,
wherever the search for addresses is given up. -/
theorem run_succeeds (s : PublishSettings) (ds : List Doclet) (tutorials : List Tutorial) :
    (∃ p, run s ds tutorials = .ok p ∧ p.doclets.length = (Doclet.prune ds).length) ∧
    (∀ paths, SourcePath.shorten? paths = some (SourcePath.shorten paths)) ∧
    (∀ d, Registry.fragmentWish? d = some (Registry.fragmentWish d)) ∧
    (∀ text, Marker.pattern.slices? text =
      some ((Marker.pattern.cut text).map Text.Piece.source)) ∧
    (∀ halt text, (WebAddress.pattern.upTo halt).slices? text =
      some (((WebAddress.pattern.upTo halt).cut text).map Text.Piece.source)) ∧
    (∀ mark text, (Ticket.pattern mark).slices? text =
      some (((Ticket.pattern mark).cut text).map Text.Piece.source)) := by
  refine ⟨?_, SourcePath.shorten?_eq, Registry.fragmentWish?_eq,
    Text.Pattern.slices?_eq Marker.pattern_bounded,
    fun halt => Text.Pattern.slices?_eq (WebAddress.pattern_bounded.upTo halt),
    fun mark => Text.Pattern.slices?_eq (Ticket.pattern_bounded mark)⟩
  obtain ⟨p, -, hrun, -⟩ := exists_recorded s ds tutorials
  have hlength : p.doclets.length = (kept ds).length := (frame_doclets hrun).length_eq.symm
  exact ⟨p, hrun, hlength.trans (List.length_mergeSort _)⟩

end Publication

end DocLinks
