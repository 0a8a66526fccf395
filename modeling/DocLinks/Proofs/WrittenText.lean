import DocLinks.Json.Draft
import DocLinks.Json.Writer

/-!
# What is written can be read

The text of a value without floating-point numbers is cut into the tokens of that value, and
the tree of these tokens is the tree of the value, in every layout.

**Results.**
* `scanText_flatMap_escapeChar`: a text in quotes is read back.
* `integer?_ofInt`: an integer of 64 bits is read back.
* `ofText_writeAt`: the document of a written value.
-/

namespace DocLinks
namespace Json

section Values

/-- A value holds no floating-point number. -/
inductive FloatFree : Json → Prop
  | null : FloatFree .null
  | bool (b : Bool) : FloatFree (.bool b)
  | integer (n : Int) : FloatFree (.number (.integer n))
  | string (s : String) : FloatFree (.string s)
  | array {items : List Json} : (∀ j ∈ items, FloatFree j) → FloatFree (.array items)
  | object {fields : List (String × Json)} :
      (∀ f ∈ fields, FloatFree f.2) → FloatFree (.object fields)

theorem FloatFree.items {items : List Json} (h : FloatFree (.array items)) :
    ∀ j ∈ items, FloatFree j := by
  cases h with
  | array h => exact h

theorem FloatFree.fields {fields : List (String × Json)} (h : FloatFree (.object fields)) :
    ∀ f ∈ fields, FloatFree f.2 := by
  cases h with
  | object h => exact h

attribute [simp] FloatFree.null FloatFree.bool FloatFree.integer FloatFree.string

@[simp]
theorem floatFree_array_iff {items : List Json} :
    FloatFree (.array items) ↔ ∀ j ∈ items, FloatFree j :=
  ⟨FloatFree.items, .array⟩

@[simp]
theorem floatFree_object_iff {fields : List (String × Json)} :
    FloatFree (.object fields) ↔ ∀ f ∈ fields, FloatFree f.2 :=
  ⟨FloatFree.fields, .object⟩

namespace Draft

mutual

/-- The tree of a value; a floating-point number has none. -/
def ofJson : Json → Draft
  | .null => .null
  | .bool b => .bool b
  | .number (.integer n) => .number (.ofInt n)
  | .number (.float _) => .unreadable
  | .string s => .string s
  | .array items => .array (ofItems items)
  | .object fields => .object (ofFields fields)

/-- The trees of the items of an array. -/
def ofItems : List Json → List Draft
  | [] => []
  | j :: items => ofJson j :: ofItems items

/-- The trees of the fields of an object. -/
def ofFields : List (String × Json) → List (Draft × Draft)
  | [] => []
  | (key, j) :: fields => (.string key, ofJson j) :: ofFields fields

end

end Draft

end Values

section Texts

/-- The four digits of a control character stand for it. -/
theorem hexNumber?_hexDigits {n : Nat} (h : n < 0x20) :
    Text.hexNumber? ['0', '0', hexDigit (n / 16), hexDigit (n % 16)] = some n := by
  have hall : ∀ n : Fin 0x20,
      Text.hexNumber? ['0', '0', hexDigit (n.val / 16), hexDigit (n.val % 16)] =
      some n.val := by
    decide
  exact hall ⟨n, h⟩

theorem eq_of_toNat_eq {c d : Char} (h : c.toNat = d.toNat) : c = d := by
  rw [← Char.ofNat_toNat c, h, Char.ofNat_toNat]

theorem scanText_simpleEscape {c x : Char} (h : simpleEscape? c = some x) (s : List Char) :
    scanText ('\\' :: c :: s) = (scanText s).push x := by
  have hu : c ≠ 'u' := by
    rintro rfl
    simp [simpleEscape?] at h
  rw [scanText.eq_def]
  split
  all_goals simp_all
  rename_i hother heq
  exact absurd heq.2.symm (hother _ _ heq.1.symm)

theorem scanText_hexEscape {n : Nat} (h : n < 0x20) (s : List Char) :
    scanText ('\\' :: 'u' :: '0' :: '0' :: hexDigit (n / 16) :: hexDigit (n % 16) :: s) =
      (scanText s).push (Char.ofNat n) := by
  have hlow : isLowHalf n = false := by
    simp only [isLowHalf, Bool.and_eq_false_iff, decide_eq_false_iff_not]
    omega
  have hhigh : isHighHalf n = false := by
    simp only [isHighHalf, Bool.and_eq_false_iff, decide_eq_false_iff_not]
    omega
  rw [scanText, hexNumber?_hexDigits h]
  simp [hlow, hhigh]

theorem scanText_plain {c : Char} (hquote : c ≠ '"') (hescape : c ≠ '\\')
    (hcontrol : ¬ c.toNat < 0x20)
    (s : List Char) : scanText (c :: s) = (scanText s).push c := by
  rw [scanText.eq_def]
  split
  case h_7 =>
    rename_i heq
    obtain ⟨rfl, rfl⟩ := List.cons.inj heq
    exact if_neg hcontrol
  all_goals simp_all

/-- An escaped character is read back. -/
theorem scanText_escapeChar (c : Char) (s : List Char) :
    scanText (escapeChar c ++ s) = (scanText s).push c := by
  unfold escapeChar
  split
  · rename_i h
    subst h
    exact scanText_simpleEscape rfl s
  rename_i hquote
  split
  · rename_i h
    subst h
    exact scanText_simpleEscape rfl s
  rename_i hescape
  split
  · rename_i h
    subst h
    exact scanText_simpleEscape rfl s
  split
  · rename_i h
    subst h
    exact scanText_simpleEscape rfl s
  split
  · rename_i h
    subst h
    exact scanText_simpleEscape rfl s
  split
  · rename_i h
    obtain rfl : c = '\x08' := eq_of_toNat_eq h
    exact scanText_simpleEscape rfl s
  split
  · rename_i h
    obtain rfl : c = '\x0c' := eq_of_toNat_eq h
    exact scanText_simpleEscape rfl s
  split
  · rename_i hcontrol
    have hread := scanText_hexEscape hcontrol s
    rwa [Char.ofNat_toNat] at hread
  · rename_i hcontrol
    exact scanText_plain hquote hescape hcontrol s

/-- A text in quotes is read back. -/
theorem scanText_flatMap_escapeChar (s rest : List Char) :
    scanText (s.flatMap escapeChar ++ '"' :: rest) = .done s rest := by
  induction s with
  | nil => rw [List.flatMap_nil, List.nil_append, scanText]
  | cons c s ih =>
      rw [List.flatMap_cons, List.append_assoc, scanText_escapeChar, ih, TextScan.push]

end Texts

section Numbers

/-- What follows a number does not go on with it. -/
def EndsNumber (rest : List Char) : Prop :=
  ∀ c ∈ rest.head?, c.isDigit = false ∧ c ≠ '.' ∧ c ≠ 'e' ∧ c ≠ 'E'

/-- The value of a digit. -/
def digitValue (c : Char) : Nat :=
  c.toNat - 48

theorem digits_append {ds rest : List Char} (hds : ∀ c ∈ ds, c.isDigit = true)
    (hrest : EndsNumber rest) :
    digits (ds ++ rest) = (ds.map digitValue, rest) := by
  have htake : rest.takeWhile Char.isDigit = [] := by
    cases rest with
    | nil => rfl
    | cons c rest => simp [(hrest c rfl).1]
  have hdrop : rest.dropWhile Char.isDigit = rest := by
    cases rest with
    | nil => rfl
    | cons c rest => simp [(hrest c rfl).1]
  rw [digits, List.takeWhile_append_of_pos hds, List.dropWhile_append_of_pos hds]
  rw [htake, hdrop, List.append_nil]
  rfl

/-- A number of more than one digit does not start with zero. -/
theorem head?_toDigits_ne_zero {n : Nat} (h : 0 < n) :
    (Nat.toDigits 10 n).head? ≠ some '0' := by
  induction n using Nat.strongRecOn with
  | ind n ih =>
      rw [Nat.toDigits_eq_if (by decide)]
      split
      · rename_i hlt
        have hall : ∀ n : Fin 10, 0 < n.val → [n.val.digitChar].head? ≠ some '0' := by decide
        exact hall ⟨n, hlt⟩ h
      · rename_i hge
        have hrest := ih (n / 10) (by omega) (by omega)
        rw [List.head?_append]
        cases hhead : (Nat.toDigits 10 (n / 10)).head? with
        | none => exact absurd (List.head?_eq_none_iff.1 hhead) Nat.toDigits_ne_nil
        | some c => rwa [hhead] at hrest

theorem scanNumeral_toDigits (negative : Bool) (n : Nat) {rest : List Char}
    (hrest : EndsNumber rest) :
    scanNumeral negative (Nat.toDigits 10 n ++ rest) =
      .done ⟨negative, (Nat.toDigits 10 n).map digitValue, [], false, 0⟩ rest := by
  have hall : ∀ c ∈ Nat.toDigits 10 n, c.isDigit = true :=
    fun c hc => Nat.isDigit_of_mem_toDigits (by decide) (by decide) hc
  have hafter : ∀ n : Numeral, scanAfterWhole n rest = .done n rest := by
    intro n
    cases rest with
    | nil => rfl
    | cons c rest =>
        obtain ⟨-, hpoint, he, hE⟩ := hrest c rfl
        unfold scanAfterWhole scanAfterDigits
        simp_all
  unfold scanNumeral
  rw [digits_append hall hrest]
  split
  · rename_i heq
    have hnil := (Prod.mk.inj heq).1
    exact absurd (List.map_eq_nil_iff.1 hnil) Nat.toDigits_ne_nil
  · rename_i heq
    have hzero := (Prod.mk.inj heq).1
    rcases Nat.eq_zero_or_pos n with rfl | hpos
    · simp at hzero
    · obtain ⟨c, ds, hds, hvalue, -⟩ := List.map_eq_cons_iff.1 hzero
      have hdigit := hall c (hds ▸ List.mem_cons_self)
      have hhead := head?_toDigits_ne_zero hpos
      rw [hds, List.head?_cons] at hhead
      refine absurd (congrArg some (eq_of_toNat_eq ?_)) hhead
      simp only [Char.isDigit, Bool.and_eq_true, decide_eq_true_eq,
        UInt32.le_iff_toNat_le] at hdigit
      have hge : 48 ≤ c.toNat := hdigit.1
      have hle : c.toNat - 48 = 0 := hvalue
      have hcode : ('0' : Char).toNat = 48 := rfl
      omega
  · rename_i heq
    obtain ⟨rfl, rfl⟩ := Prod.mk.inj heq
    exact hafter _

theorem natural_toDigits (n : Nat) :
    Numeral.natural ((Nat.toDigits 10 n).map digitValue) = n := by
  have hread := @Nat.ofDigitChars_ten_toDigits n
  rw [Nat.ofDigitChars_eq_foldl] at hread
  simp only [Nat.mul_comm] at hread
  rw [Numeral.natural, List.foldl_map]
  exact hread

/-- An integer of 64 bits is read back. -/
theorem value?_ofInt {n : Int} (hlow : -(Nat.pow 2 63 : Nat) ≤ n)
    (hhigh : n < Numeral.wordLimit) :
    (Numeral.ofInt n).value? = some (.integer n) := by
  have hnatural : Numeral.natural (Numeral.ofInt n).whole = n.natAbs :=
    natural_toDigits n.natAbs
  have hinteger : (Numeral.ofInt n).integer? = some n := by
    unfold Numeral.integer?
    rw [hnatural]
    by_cases hneg : n < 0
    · have hsmall : 0 < n.natAbs ∧ n.natAbs ≤ Nat.pow 2 63 := by omega
      have hback : -(n.natAbs : Int) = n := by omega
      simp only [Numeral.ofInt, hneg, hsmall, decide_true, Bool.and_self, Bool.false_eq_true,
        if_true, if_false, hback]
    · have hsmall : n.natAbs < Numeral.wordLimit := by omega
      have hback : (n.natAbs : Int) = n := by omega
      simp only [Numeral.ofInt, hneg, hsmall, decide_false, Bool.false_eq_true,
        if_true, if_false, hback]
  rw [Numeral.value?, hinteger]

end Numbers

section Trees

open Draft (State ofJson ofItems ofFields)

/-- What reading a text makes of a state. -/
def readOn (st : State) (s : List Char) : State :=
  (tokens s).foldl Draft.step st

variable {st : State} {stack : List Frame} {rest : List Char}

theorem readOn_gap {c : Char} (h : isGap c = true) (st : State) (s : List Char) :
    readOn st (c :: s) = readOn st s := by
  rw [readOn, tokens]
  rw [if_pos h, ← readOn]

theorem readOn_step {c : Char} (h : isGap c = false) (st : State) (s : List Char) :
    readOn st (c :: s) = readOn (Draft.step st (step c s).token) (step c s).rest := by
  rw [readOn, tokens, if_neg (by simp [h])]
  rw [List.foldl_cons, ← readOn]

/-- A character that is a token by itself. -/
theorem readOn_cons {c : Char} {t : Token} {s : List Char} (hgap : isGap c = false)
    (ht : step c s = ⟨t, s⟩) (st : State) :
    readOn st (c :: s) = readOn (Draft.step st t) s := by
  rw [readOn_step hgap, ht]

theorem readOn_lineBreak (l : Layout) (depth : Nat) (st : State) (s : List Char) :
    readOn st (l.lineBreak depth ++ s) = readOn st s := by
  have hblanks : ∀ n, readOn st (List.replicate n ' ' ++ s) = readOn st s := by
    intro n
    induction n with
    | zero => rfl
    | succ n ih =>
        rw [List.replicate_succ, List.cons_append]
        rw [readOn_gap (by decide), ih]
  cases l with
  | compact => rfl
  | indented =>
      rw [Layout.lineBreak, List.cons_append, readOn_gap (by decide)]
      exact hblanks _

theorem readOn_writeText (st : State) (s : String) (rest : List Char) :
    readOn st (writeText s.toList ++ rest) = readOn (Draft.step st (.text s)) rest := by
  have hscan : textStep (s.toList.flatMap escapeChar ++ '"' :: rest) = ⟨.text s, rest⟩ := by
    rw [textStep, scanText_flatMap_escapeChar]
    simp
  have hquote : writeText s.toList ++ rest =
      '"' :: (s.toList.flatMap escapeChar ++ '"' :: rest) := by
    simp [writeText]
  rw [hquote, readOn_step (by decide)]
  have hstep : step '"' (s.toList.flatMap escapeChar ++ '"' :: rest) =
      ⟨.text s, rest⟩ := hscan
  rw [hstep]

theorem isGap_of_isDigit {c : Char} (h : c.isDigit = true) : isGap c = false := by
  have hne : ∀ d : Char, d.isDigit = false → (c == d) = false := by
    rintro d hd
    rw [beq_eq_false_iff_ne]
    rintro rfl
    rw [h] at hd
    simp at hd
  simp [isGap, hne ' ' (by decide), hne '\n' (by decide), hne '\t' (by decide),
    hne '\r' (by decide)]

theorem step_of_isDigit {c : Char} (h : c.isDigit = true) (s : List Char) :
    step c s = numeralStep false (c :: s) := by
  unfold step
  split
  all_goals first
    | exact absurd h (by decide)
    | rw [if_pos h]

theorem readOn_writeInteger (st : State) (n : Int) (hrest : EndsNumber rest) :
    readOn st ((Number.integer n).write ++ rest) =
      readOn (Draft.step st (.numeral (.ofInt n))) rest := by
  have hscan : ∀ negative, numeralStep negative (Nat.toDigits 10 n.natAbs ++ rest) =
      ⟨.numeral ⟨negative, (Nat.toDigits 10 n.natAbs).map digitValue, [],
        false, 0⟩, rest⟩ := by
    intro negative
    rw [numeralStep, scanNumeral_toDigits negative n.natAbs hrest]
  by_cases hneg : n < 0
  · have hwrite : (Number.integer n).write ++ rest =
        '-' :: (Nat.toDigits 10 n.natAbs ++ rest) := by
      simp [Number.write, hneg]
    have hstep : step '-' (Nat.toDigits 10 n.natAbs ++ rest) =
        ⟨.numeral (.ofInt n), rest⟩ := by
      refine (hscan true).trans ?_
      simp [Numeral.ofInt, hneg, digitValue]
    rw [hwrite, readOn_step (by decide), hstep]
  · have hwrite : (Number.integer n).write ++ rest = Nat.toDigits 10 n.natAbs ++ rest := by
      simp [Number.write, hneg]
    obtain ⟨c, ds, hds⟩ :=
      List.exists_cons_of_ne_nil (Nat.toDigits_ne_nil (n := n.natAbs) (b := 10))
    have hdigit : c.isDigit = true :=
      Nat.isDigit_of_mem_toDigits (by decide) (by decide) (hds ▸ List.mem_cons_self)
    have hstep : step c (ds ++ rest) = ⟨.numeral (.ofInt n), rest⟩ := by
      have hsame := hscan false
      rw [hds] at hsame
      refine (step_of_isDigit hdigit _).trans (hsame.trans ?_)
      simp [Numeral.ofInt, hneg, digitValue, hds]
    rw [hwrite, hds, List.cons_append]
    rw [readOn_step (isGap_of_isDigit hdigit), hstep]

/-- Whether a value may come next, be it the first one of an array. -/
def AwaitsValue (st : State) (stack : List Frame) : Prop :=
  ∀ t, t ≠ .closeArray → Draft.step st t = Draft.startValue t stack

theorem awaitsValue_value (stack : List Frame) : AwaitsValue (.reading stack .value) stack :=
  fun _ _ => rfl

theorem awaitsValue_valueOrEnd (stack : List Frame) :
    AwaitsValue (.reading stack .valueOrEnd) stack := by
  intro t ht
  unfold Draft.step
  split <;> simp_all

theorem endsNumber_cons {c : Char} (h : c.isDigit = false ∧ c ≠ '.' ∧ c ≠ 'e' ∧ c ≠ 'E')
    (rest : List Char) : EndsNumber (c :: rest) := by
  intro d hd
  obtain rfl : c = d := by simpa using hd
  exact h

theorem endsNumber_lineBreak (l : Layout) (depth : Nat) {s : List Char} (h : EndsNumber s) :
    EndsNumber (l.lineBreak depth ++ s) := by
  cases l with
  | compact => exact h
  | indented => exact endsNumber_cons (by decide) _

theorem endsNumber_writeItems (l : Layout) (depth : Nat) (items : List Json) {s : List Char}
    (h : EndsNumber s) : EndsNumber (writeItems l depth items ++ s) := by
  cases items with
  | nil => exact h
  | cons j items => exact endsNumber_cons (by decide) _

theorem endsNumber_writeFields (l : Layout) (depth : Nat) (fields : List (String × Json))
    {s : List Char} (h : EndsNumber s) : EndsNumber (writeFields l depth fields ++ s) := by
  cases fields with
  | nil => exact h
  | cons f fields => exact endsNumber_cons (by decide) _

theorem readOn_colon (l : Layout) (stack : List Frame) (s : List Char) :
    readOn (.reading stack .colon) (l.colon ++ s) = readOn (.reading stack .value) s := by
  cases l with
  | compact => exact readOn_step (by decide) _ _
  | indented =>
      rw [Layout.colon, List.cons_append, readOn_step (by decide)]
      exact readOn_gap (by decide) _ _

mutual

/-- A written value is read where a value is awaited. -/
theorem readOn_writeAt (l : Layout) : ∀ (depth : Nat) (j : Json), FloatFree j →
    ∀ {st : State} {stack : List Frame} {rest : List Char},
    AwaitsValue st stack → EndsNumber rest →
      readOn st (writeAt l depth j ++ rest) = readOn (Draft.place (ofJson j) stack) rest
  | _, .null, _, st, stack, rest, hst, _ => by
      rw [writeAt, List.cons_append, readOn_step (by decide)]
      exact congrArg (readOn · rest) (hst .null (by simp))
  | _, .bool true, _, st, stack, rest, hst, _ => by
      rw [writeAt, List.cons_append, readOn_step (by decide)]
      exact congrArg (readOn · rest) (hst (.bool true) (by simp))
  | _, .bool false, _, st, stack, rest, hst, _ => by
      rw [writeAt, List.cons_append, readOn_step (by decide)]
      exact congrArg (readOn · rest) (hst (.bool false) (by simp))
  | _, .number (.integer n), _, st, stack, rest, hst, hrest => by
      rw [writeAt, readOn_writeInteger st n hrest, hst _ (by simp)]
      rfl
  | _, .number (.float x), hj, _, _, _, _, _ => nomatch hj
  | _, .string s, _, st, stack, rest, hst, _ => by
      rw [writeAt, readOn_writeText, hst _ (by simp)]
      rfl
  | _, .array [], _, st, stack, rest, hst, _ => by
      have hopen : Draft.step st .openArray = .reading (.array [] :: stack) .valueOrEnd :=
        hst .openArray (by simp)
      rw [writeAt, List.cons_append, List.cons_append]
      rw [List.nil_append, readOn_cons (by decide) rfl]
      rw [hopen, readOn_cons (by decide) rfl]
      rfl
  | depth, .array (j :: items), hj, st, stack, rest, hst, _ => by
      have hopen : Draft.step st .openArray = .reading (.array [] :: stack) .valueOrEnd :=
        hst .openArray (by simp)
      -- The first item follows the bracket, and before each of the others stands a comma.
      have hclose : EndsNumber (l.lineBreak depth ++ ']' :: rest) :=
        endsNumber_lineBreak l depth (endsNumber_cons (by decide) rest)
      have hfirst := readOn_writeAt l (depth + 1) j (hj.items j List.mem_cons_self)
        (awaitsValue_valueOrEnd (.array [] :: stack))
        (endsNumber_writeItems l (depth + 1) items hclose)
      have hitems := readOn_writeItems l (depth + 1) items
        (fun i hi => hj.items i (List.mem_cons_of_mem _ hi)) [ofJson j] stack hclose
      simp only [writeAt, List.cons_append, List.append_assoc, List.nil_append]
      rw [readOn_cons (by decide) rfl, hopen, readOn_lineBreak]
      rw [hfirst, Draft.place, hitems]
      rw [readOn_lineBreak, readOn_cons (by decide) rfl]
      simp [Draft.step, ofJson, ofItems]
  | _, .object [], _, st, stack, rest, hst, _ => by
      have hopen : Draft.step st .openObject = .reading (.object [] :: stack) .nameOrEnd :=
        hst .openObject (by simp)
      rw [writeAt, List.cons_append, List.cons_append]
      rw [List.nil_append, readOn_cons (by decide) rfl]
      rw [hopen, readOn_cons (by decide) rfl]
      rfl
  | depth, .object ((key, j) :: fields), hj, st, stack, rest, hst, _ => by
      have hopen : Draft.step st .openObject = .reading (.object [] :: stack) .nameOrEnd :=
        hst .openObject (by simp)
      have hclose : EndsNumber (l.lineBreak depth ++ '\x7d' :: rest) :=
        endsNumber_lineBreak l depth (endsNumber_cons (by decide) rest)
      have hfirst := readOn_writeAt l (depth + 1) j (hj.fields (key, j) List.mem_cons_self)
        (awaitsValue_value (.field [] (.string key) :: stack))
        (endsNumber_writeFields l (depth + 1) fields hclose)
      have hfields := readOn_writeFields l (depth + 1) fields
        (fun f hf => hj.fields f (List.mem_cons_of_mem _ hf)) [(.string key, ofJson j)]
        stack hclose
      simp only [writeAt, List.cons_append, List.append_assoc, List.nil_append]
      rw [readOn_cons (by decide) rfl, hopen]
      rw [readOn_lineBreak, readOn_writeText]
      have hname : Draft.step (.reading (.object [] :: stack) .nameOrEnd) (.text key) =
          .reading (.field [] (.string key) :: stack) .colon := rfl
      rw [hname, readOn_colon, hfirst]
      rw [Draft.place, hfields]
      rw [readOn_lineBreak, readOn_cons (by decide) rfl]
      simp [Draft.step, ofJson, ofFields]

theorem readOn_writeItems (l : Layout) : ∀ (depth : Nat) (items : List Json),
    (∀ j ∈ items, FloatFree j) →
    ∀ (done : List Draft) (stack : List Frame) {rest : List Char},
      EndsNumber rest → readOn (.reading (.array done :: stack) .commaOrEnd)
        (writeItems l depth items ++ rest) =
          readOn
            (.reading (.array ((ofItems items).reverse ++ done) :: stack) .commaOrEnd) rest
  | _, [], _, _, _, _, _ => rfl
  | depth, j :: items, hj, done, stack, rest, hrest => by
      have hcomma : Draft.step (.reading (.array done :: stack) .commaOrEnd) .comma =
          .reading (.array done :: stack) .value := rfl
      have hfirst := readOn_writeAt l depth j (hj j List.mem_cons_self)
        (awaitsValue_value (.array done :: stack))
          (endsNumber_writeItems l depth items hrest)
      have hitems :=
        readOn_writeItems l depth items (fun i hi => hj i (List.mem_cons_of_mem _ hi))
        (ofJson j :: done) stack hrest
      simp only [writeItems, List.cons_append, List.append_assoc]
      rw [readOn_cons (by decide) rfl, hcomma, readOn_lineBreak]
      rw [hfirst, Draft.place, hitems]
      simp [ofItems]

theorem readOn_writeFields (l : Layout) : ∀ (depth : Nat) (fields : List (String × Json)),
    (∀ f ∈ fields, FloatFree f.2) →
      ∀ (done : List (Draft × Draft)) (stack : List Frame) {rest : List Char},
      EndsNumber rest →
        readOn (.reading (.object done :: stack) .commaOrEnd)
          (writeFields l depth fields ++ rest) =
          readOn (.reading (.object ((ofFields fields).reverse ++ done) ::
            stack) .commaOrEnd) rest
  | _, [], _, _, _, _, _ => rfl
  | depth, (key, j) :: fields, hj, done, stack, rest, hrest => by
      have hcomma : Draft.step (.reading (.object done :: stack) .commaOrEnd) .comma =
          .reading (.object done :: stack) .name := rfl
      have hname : Draft.step (.reading (.object done :: stack) .name) (.text key) =
          .reading (.field done (.string key) :: stack) .colon := rfl
      have hfirst := readOn_writeAt l depth j (hj (key, j) List.mem_cons_self)
        (awaitsValue_value (.field done (.string key) :: stack))
        (endsNumber_writeFields l depth fields hrest)
      have hfields := readOn_writeFields l depth fields
        (fun f hf => hj f (List.mem_cons_of_mem _ hf)) ((.string key, ofJson j) :: done)
        stack hrest
      simp only [writeFields, List.cons_append, List.append_assoc]
      rw [readOn_cons (by decide) rfl, hcomma, readOn_lineBreak]
      rw [readOn_writeText, hname, readOn_colon]
      rw [hfirst, Draft.place, hfields]
      simp [ofFields]

end

/-- The document of a written value is the tree of the value, and nothing follows it. -/
theorem ofText_writeAt (l : Layout) {j : Json} (hj : FloatFree j) :
    Draft.ofText (writeAt l 0 j) = ⟨ofJson j, false⟩ := by
  have hend : EndsNumber [] := by simp [EndsNumber]
  have hread := readOn_writeAt l 0 j hj (awaitsValue_value []) hend
  rw [List.append_nil] at hread
  have hdone : (tokens (writeAt l 0 j)).foldl Draft.step (.reading [] .value) =
      .complete (ofJson j) := by
    refine hread.trans ?_
    rw [readOn, tokens]
    rfl
  rw [Draft.ofText, Draft.ofTokens, hdone]
  rfl

end Trees

end Json
end DocLinks
