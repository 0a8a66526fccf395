import DocLinks.Expansion.TopLevel
import DocLinks.Text.Scan
import DocLinks.Text.Split
import DocLinks.Text.Word

/-!
# Web addresses in running text

Finds addresses as a reader would: not too little, and without the punctuation that follows
them.

**Forms.**  A full address has a scheme, or a domain name with a slash behind it, and goes on
as far as it can; parentheses belong to it in pairs, one level deep or as a last resort in
any way, and it does not end in punctuation.  A bare domain ends in a known top-level domain
and, perhaps, a slash; it is not the host of a mail address.

**Algorithm.**  Of all the ways to go on, the earlier one is taken if it leads to an end: a
longer one before a shorter one, nested parentheses before a loose pair, and a loose pair
that closes early before one that closes late.

**Results.**  `length_nested?`: a pair of parentheses takes characters, which is why reading
ends.
-/

namespace DocLinks
namespace WebAddress

/-- The two forms of an address: a scheme or a domain name with a path, and what follows, or
a domain name alone. -/
inductive Shape where
  | full
  | domain
  deriving DecidableEq, Repr

/-- The small letter that a letter counts as; two letters beyond ASCII count as `s` and
`k`. -/
def foldCase (c : Char) : Char :=
  if 'A' ≤ c && c ≤ 'Z' then Char.ofNat (c.toNat + 32)
  else if c == '\u017f' then 's'
  else if c == '\u212a' then 'k'
  else c

/-- Letters and digits of domain names. -/
def isLabelChar (c : Char) : Bool :=
  let f := foldCase c
  ('a' ≤ f && f ≤ 'z') || ('0' ≤ f && f ≤ '9')

/-- Characters of domain names. -/
def isHostChar (c : Char) : Bool :=
  isLabelChar c || c == '.' || c == '-'

/-- Whether a label is one of the given top-level domains. -/
def isTopLevel (domains : List String) (label : List Char) : Bool :=
  domains.contains (String.ofList (label.map foldCase))

/-- Characters that can stand inside a full address, parentheses aside. -/
def isInner (c : Char) : Bool :=
  !(Text.isBlank c || ['(', ')', '<', '>', '{', '}', '[', ']'].contains c)

/-- Punctuation and quotes, in which no address ends. -/
def endPunctuation : List Char :=
  ['`', '!', '(', ')', '[', ']', '{', '}', ';', ':', '\'', '"', '.', ',', '<', '>', '?',
   '«', '»', '“', '”', '‘', '’']

/-- Characters that can end a full address. -/
def isLast (c : Char) : Bool :=
  !Text.isBlank c && !endPunctuation.contains c

/-- Characters that can stand between parentheses that are nested one level deep. -/
def isNested (c : Char) : Bool :=
  !Text.isBlank c && c != '(' && c != ')'

/-- What follows a closing parenthesis after characters that can be nested. -/
def afterNested? (s : List Char) : Option (List Char) :=
  match s.dropWhile isNested with
  | ')' :: rest => some rest
  | _ => none

/-- What follows a pair of parentheses with another, not empty, pair inside. -/
def nested? (s : List Char) : Option (List Char) :=
  match s with
  | '(' :: s =>
      match s.dropWhile isNested with
      | '(' :: s =>
          if (s.takeWhile isNested).isEmpty then none
          else
            match afterNested? s with
            | some s => afterNested? s
            | none => none
      | _ => none
  | _ => none

/-- What follows the first closing parenthesis that no blank separates from here. -/
def closing? : List Char → Option (List Char)
  | [] => none
  | c :: s => if Text.isBlank c then none else if c = ')' then some s else closing? s

/-- What follows a pair of parentheses that is not empty and closes as early as possible. -/
def loose? (s : List Char) : Option (List Char) :=
  match s with
  | '(' :: c :: s => if Text.isBlank c then none else closing? s
  | _ => none

theorem length_dropWhile_le (p : Char → Bool) (s : List Char) :
    (s.dropWhile p).length ≤ s.length :=
  (List.dropWhile_sublist p).length_le

theorem length_afterNested? {s rest : List Char} (h : afterNested? s = some rest) :
    rest.length < s.length := by
  unfold afterNested? at h
  split at h
  · rename_i r hr
    have hl := length_dropWhile_le isNested s
    rw [hr] at hl
    simp only [Option.some.injEq] at h
    subst h
    exact hl
  · simp at h

theorem length_nested? {s rest : List Char} (h : nested? s = some rest) :
    rest.length < s.length := by
  unfold nested? at h
  split at h
  · rename_i s
    split at h
    · rename_i t ht
      have hl := length_dropWhile_le isNested s
      rw [ht] at hl
      split at h
      · simp at h
      · split at h
        · rename_i u hu
          have h1 := length_afterNested? hu
          have h2 := length_afterNested? h
          simp only [List.length_cons] at hl ⊢
          omega
        · simp at h
    · simp at h
  · simp at h

mutual

/-- What follows a full address that goes on here.  It may end here only if it has begun
before. -/
def tail? (begun : Bool) (s : List Char) : Option (List Char) :=
  match s with
  | [] => none
  | '(' :: t =>
      let viaNested :=
        match h : nested? ('(' :: t) with
        | some rest =>
            have := length_nested? h
            tail? true rest
        | none => none
      match viaNested with
      | some rest => some rest
      | none =>
          match viaLoose? t with
          | some rest => some rest
          | none =>
              if begun then
                match nested? ('(' :: t) with
                | some rest => some rest
                | none => loose? ('(' :: t)
              else none
  | c :: t =>
      if isInner c then
        match tail? true t with
        | some rest => some rest
        | none => if begun && isLast c then some t else none
      else none
  termination_by (s.length, 0)

/-- What follows a full address that goes on behind a loose pair of parentheses; the pair has
been opened just before. -/
def viaLoose? (s : List Char) : Option (List Char) :=
  match s with
  | [] => none
  | c :: s => if Text.isBlank c then none else viaClosing? s
  termination_by (s.length, 0)

/-- What follows a full address that goes on behind some closing parenthesis, the first one
that leads to an end. -/
def viaClosing? (s : List Char) : Option (List Char) :=
  match s with
  | [] => none
  | c :: s =>
      if Text.isBlank c then none
      else if c = ')' then
        match tail? true s with
        | some rest => some rest
        | none => viaClosing? s
      else viaClosing? s
  termination_by (s.length, 0)

end

/-- What follows the name `http` or `https` of a scheme and its colon. -/
def afterScheme? (s : List Char) : Option (List Char) :=
  match s with
  | h :: t :: t' :: p :: s =>
      if [h, t, t', p].map foldCase = ['h', 't', 't', 'p'] then
        match s with
        | ':' :: s => some s
        | c :: ':' :: s => if foldCase c = 's' then some s else none
        | _ => none
      else none
  | _ => none

/-- What follows a full address with a scheme, after the colon of the scheme: up to three
slashes, as many as possible, or a letter, digit or percent sign come first. -/
def afterColon? (s : List Char) : Option (List Char) :=
  match s with
  | '/' :: '/' :: '/' :: t =>
      ((tail? false t).or (tail? false ('/' :: t))).or (tail? false ('/' :: '/' :: t))
  | '/' :: '/' :: t => (tail? false t).or (tail? false ('/' :: t))
  | '/' :: t => tail? false t
  | c :: t => if isLabelChar c || c == '%' then tail? false t else none
  | [] => none

/-- What follows a domain name with a slash behind it. -/
def afterHost? (s : List Char) : Option (List Char) :=
  match s.dropWhile isHostChar with
  | '/' :: rest =>
      match Text.cutAtLast (· == '.') (s.takeWhile isHostChar) with
      | some (before, top) =>
          if !before.isEmpty && isTopLevel TopLevel.withPath top then some rest else none
      | none => none
  | _ => none

/-- What follows a full address. -/
def full? (s : List Char) : Option (List Char) :=
  match (afterScheme? s).bind afterColon? with
  | some rest => some rest
  | none => (afterHost? s).bind (tail? false)

/-- What follows a bare domain, after its last label: the label must end here, a slash is
taken if no at sign follows it, and without a slash no at sign may follow. -/
def domainEnd? (s : List Char) : Option (List Char) :=
  match s with
  | [] => some []
  | '@' :: _ => none
  | '/' :: '@' :: rest => some ('/' :: '@' :: rest)
  | '/' :: rest => some rest
  | c :: rest => if Text.isWord c then none else some (c :: rest)

/-- What follows a bare domain, after one of its labels; as many labels as possible are
taken. -/
def moreLabels? (s : List Char) : Option (List Char) :=
  match s with
  | [] => none
  | c :: t =>
      if c = '.' || c = '-' then
        let label := t.takeWhile isLabelChar
        if label.isEmpty then none
        else
          match moreLabels? (t.dropWhile isLabelChar) with
          | some rest => some rest
          | none =>
              if c = '.' && isTopLevel TopLevel.all label then
                domainEnd? (t.dropWhile isLabelChar)
              else none
      else none
  termination_by s.length
  decreasing_by
    have := length_dropWhile_le isLabelChar t
    simp only [List.length_cons]
    omega

/-- What follows a bare domain. -/
def domain? (s : List Char) : Option (List Char) :=
  if (s.takeWhile isLabelChar).isEmpty then none else moreLabels? (s.dropWhile isLabelChar)

/-- Reads an address, and gives its form and what follows it. -/
def read? (s : List Char) : Option (Shape × List Char) :=
  match full? s with
  | some rest => some (.full, rest)
  | none => (domain? s).map (.domain, ·)

end WebAddress

/-- What is known about an address that was found: its form, and whether it is the target of
a marker or the value of an attribute already. -/
structure WebAddress where
  shape : WebAddress.Shape
  inMarkup : Bool
  deriving DecidableEq, Repr

namespace WebAddress

/-- The endings of a text after which an address belongs to markup. -/
def markupLeads : List (List Char) :=
  ["\x7b@link ".toList, ['@'], ['=', '\''], ['=', '"']]

/-- Whether an address belongs to markup, given what stands before it in reverse order. -/
def followsMarkup (before : List Char) : Bool :=
  markupLeads.any fun lead => lead.reverse.isPrefixOf before

/-- The pattern of addresses; they start at a boundary of words. -/
def pattern : Text.Pattern WebAddress := fun before s =>
  if Text.atBoundary Text.isWord before.head? s.head? then
    (read? s).map fun (shape, rest) =>
      ⟨⟨shape, followsMarkup before⟩, s.length - rest.length - 1⟩
  else none

end WebAddress

end DocLinks
