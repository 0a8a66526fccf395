import DocLinks.Text.LowercaseTable

/-!
# Lower case

The full lower case of a text, which decides whether two filenames or two fragments collide.
All characters are mapped one by one, except that the capital sigma becomes a final sigma at
the end of a word: after a cased letter and not before one, passing over characters without
influence.

**Results.**  `lower_nil`, `lowerFrom_cons`: one equation per character.
-/

namespace DocLinks
namespace Text

/-- The capital sigma, the one letter whose lower case depends on its place. -/
def capitalSigma : Char := 'Σ'

/-- The lower case of one character, whatever stands around it. -/
def lowerChar (c : Char) : List Char :=
  let n := c.toNat
  if n < 0x80 then
    [if 'A' ≤ c && c ≤ 'Z' then Char.ofNat (n + 32) else c]
  else if n == 0x130 then
    ['i', '\u0307']
  else
    match capitalRuns.find? (·.covers n) with
    | some run => [Char.ofNat (Int.toNat (n + run.shift))]
    | none => [c]

/-- Letters with a case. -/
def isCased (c : Char) : Bool :=
  casedRanges.contains c

/-- Characters that the search for a cased neighbour passes over. -/
def isCaseIgnorable (c : Char) : Bool :=
  caseIgnorableRanges.contains c

/-- Whether the first character that counts is a cased letter. -/
def startsCased (s : List Char) : Bool :=
  match s.dropWhile isCaseIgnorable with
  | c :: _ => isCased c
  | [] => false

/-- Whether the last character that counts is a cased letter, once `c` has followed. -/
def casedAfter (afterCased : Bool) (c : Char) : Bool :=
  if isCaseIgnorable c then afterCased else isCased c

/-- The lower case of one character between its neighbours. -/
def lowerAt (afterCased : Bool) (c : Char) (rest : List Char) : List Char :=
  if c = capitalSigma then
    [if afterCased && !startsCased rest then 'ς' else 'σ']
  else
    lowerChar c

/-- The lower case of the rest of a text, given whether a cased letter comes before it. -/
def lowerFrom (afterCased : Bool) : List Char → List Char
  | [] => []
  | c :: rest => lowerAt afterCased c rest ++ lowerFrom (casedAfter afterCased c) rest

/-- The full lower case of a text. -/
def lower (s : List Char) : List Char :=
  lowerFrom false s

@[simp] theorem lower_nil : lower [] = [] := rfl

theorem lowerFrom_cons (b : Bool) (c : Char) (rest : List Char) :
    lowerFrom b (c :: rest) = lowerAt b c rest ++ lowerFrom (casedAfter b c) rest := rfl

/-- The key under which names that differ only in case collide. -/
def caseKey (s : List Char) : String :=
  String.ofList (lower s)

end Text
end DocLinks
