import DocLinks.Doclet.Basic

/-!
# Captions of examples

An example may start with its caption between tags, followed by the end of the line and the
code. Such a caption is moved into a field of its own.

**Algorithm.**  The caption is as short as possible, and the blanks between it and the code
are as many as possible, as long as they end a line and some code is left.

**Results.**  `caption_ne_nil`, `afterLineEnd?_eq`: what is moved is not empty, and the code
is an end of the text.
-/

namespace DocLinks
namespace Caption

/-- What follows `lead`, if the text begins with it; the case of ASCII letters does not
matter. -/
def afterTag? : (lead s : List Char) → Option (List Char)
  | [], s => some s
  | _ :: _, [] => none
  | a :: lead, c :: s => if a = c.toLower then afterTag? lead s else none

/-- The characters that end a line. -/
def isLineEnd (c : Char) : Bool :=
  c == '\n' || c == '\r'

/-- What follows the longest run of blanks that ends a line and leaves something. -/
def afterLineEnd? : List Char → Option (List Char)
  | [] => none
  | c :: s =>
      if Text.isBlank c then
        match afterLineEnd? s with
        | some rest => some rest
        | none => if isLineEnd c && !s.isEmpty then some s else none
      else none

/-- The caption and the code, given the caption so far in reverse order. -/
def findEnd? (caption : List Char) : List Char → Option (List Char × List Char)
  | [] => none
  | c :: s =>
      let here :=
        if caption.isEmpty then none
        else (afterTag? "</caption>".toList (c :: s)).bind afterLineEnd?
      match here with
      | some code => some (caption.reverse, code)
      | none => findEnd? (c :: caption) s

/-- The caption and the code of a text that starts with a caption. -/
def cut? (s : List Char) : Option (List Char × List Char) :=
  (afterTag? "<caption>".toList (Text.trimStart s)).bind (findEnd? [])

/-- Moves the caption of an example into its field, unless it has one. -/
def split (e : Example) : Example :=
  if e.caption == "" then
    match cut? e.code.toList with
    | some (caption, code) => ⟨String.ofList caption, String.ofList code⟩
    | none => e
  else e

theorem caption_ne_nil {acc s caption code : List Char}
    (h : findEnd? acc s = some (caption, code)) :
    caption ≠ [] := by
  induction s generalizing acc with
  | nil => simp [findEnd?] at h
  | cons c s ih =>
      simp only [findEnd?] at h
      split at h
      · rename_i hc
        split at hc
        · simp at hc
        · rename_i hne
          simp only [Option.some.injEq, Prod.mk.injEq] at h
          rw [← h.1]
          simpa using hne
      · exact ih h

theorem afterLineEnd?_eq {s rest : List Char} (h : afterLineEnd? s = some rest) :
    ∃ blanks, s = blanks ++ rest ∧ blanks.all Text.isBlank = true ∧ rest ≠ [] := by
  induction s with
  | nil => simp [afterLineEnd?] at h
  | cons c s ih =>
      simp only [afterLineEnd?] at h
      split at h
      · rename_i hc
        split at h
        · rename_i r hr
          simp only [Option.some.injEq] at h
          subst h
          obtain ⟨blanks, hs, hb, hne⟩ := ih hr
          exact ⟨c :: blanks, by simp [hs], by simp [hc, hb], hne⟩
        · split at h
          · rename_i hs
            simp only [Option.some.injEq] at h
            subst h
            exact ⟨[c], rfl, by simp [hc], by simp_all⟩
          · simp at h
      · simp at h

end Caption
end DocLinks
