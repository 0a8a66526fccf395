import Mathlib.Data.String.Basic
import DocLinks.Json.Form
import DocLinks.Proofs.ListSteps
import DocLinks.Proofs.WrittenText

/-!
# Values that are read back

A value that was read from a draft is read back from what is written for it, if its arrays
and objects may be nested as deeply as those of the draft.  Only floating-point numbers may
be written as others.

**Invariant.**  `SoundFields`: the fields read so far are sorted by name, and their values
are read back. So each of them is put at the end when it is read again.

**Results.**  `value_ofJson`: whatever value was read is read back, unless it holds
floating-point numbers.
-/

namespace DocLinks
namespace Json

open Draft (ofJson ofItems ofFields)

namespace Draft

mutual

/-- How many arrays and objects are inside each other in a tree. -/
def nesting : Draft → Nat
  | .array items => nestingAll items + 1
  | .object fields => nestingFields fields + 1
  | _ => 0

/-- The deepest nesting of the items of an array. -/
def nestingAll : List Draft → Nat
  | [] => 0
  | d :: items => max d.nesting (nestingAll items)

/-- The deepest nesting of the values of an object. -/
def nestingFields : List (Draft × Draft) → Nat
  | [] => 0
  | (_, d) :: fields => max d.nesting (nestingFields fields)

end

theorem nesting_le_nestingAll {d : Draft} {items : List Draft} (h : d ∈ items) :
    d.nesting ≤ nestingAll items := by
  induction items with
  | nil => simp at h
  | cons e items ih =>
      rw [nestingAll]
      rcases List.mem_cons.1 h with rfl | h
      · exact Nat.le_max_left _ _
      · exact Nat.le_trans (ih h) (Nat.le_max_right _ _)

theorem ofItems_eq_map (items : List Json) : ofItems items = items.map ofJson := by
  induction items with
  | nil => rfl
  | cons j items ih => rw [ofItems, ih, List.map_cons]

theorem ofFields_append (fields more : List (String × Json)) :
    ofFields (fields ++ more) = ofFields fields ++ ofFields more := by
  induction fields with
  | nil => rfl
  | cons f fields ih =>
      obtain ⟨key, j⟩ := f
      rw [List.cons_append, ofFields, ofFields]
      rw [ih, List.cons_append]

end Draft

section Sorting

/-- Fields are sorted by name, and no name comes twice. -/
def Sorted (fields : List (String × Json)) : Prop :=
  fields.Pairwise fun f g => f.1 < g.1

variable {fields : List (String × Json)} {key : String} {v : Json}

theorem mem_insertField {f : String × Json} (h : f ∈ insertField key v fields) :
    f = (key, v) ∨ f ∈ fields := by
  induction fields with
  | nil => exact .inl (List.mem_singleton.1 h)
  | cons g fields ih =>
      obtain ⟨k, w⟩ := g
      rw [insertField] at h
      split at h
      · rcases List.mem_cons.1 h with h | h
        · exact .inl h
        · exact .inr h
      · split at h
        · rcases List.mem_cons.1 h with h | h
          · exact .inl h
          · exact .inr (List.mem_cons_of_mem _ h)
        · rcases List.mem_cons.1 h with h | h
          · exact .inr (h ▸ List.mem_cons_self)
          · exact (ih h).imp_right (List.mem_cons_of_mem _)

theorem Sorted.insertField (h : Sorted fields) (key : String) (v : Json) :
    Sorted (insertField key v fields) := by
  induction fields with
  | nil => exact List.pairwise_singleton _ _
  | cons g fields ih =>
      obtain ⟨k, w⟩ := g
      obtain ⟨hall, hrest⟩ := List.pairwise_cons.1 h
      rw [Json.insertField]
      split
      · rename_i hlt
        refine List.pairwise_cons.2 ⟨fun f hf => ?_, h⟩
        rcases List.mem_cons.1 hf with rfl | hf
        · exact hlt
        · exact lt_trans hlt (hall f hf)
      · split
        · rename_i heq
          exact List.pairwise_cons.2 ⟨fun f hf => heq ▸ hall f hf, hrest⟩
        · rename_i hlt hne
          refine List.pairwise_cons.2 ⟨fun f hf => ?_, ih hrest⟩
          rcases mem_insertField hf with rfl | hf
          · exact lt_of_le_of_ne (not_lt.1 hlt) (Ne.symm hne)
          · exact hall f hf

/-- A field whose name is the largest is put at the end. -/
theorem insertField_of_forall_lt (h : ∀ f ∈ fields, f.1 < key) :
    insertField key v fields = fields ++ [(key, v)] := by
  induction fields with
  | nil => rfl
  | cons g fields ih =>
      obtain ⟨k, w⟩ := g
      have hlt : k < key := h (k, w) List.mem_cons_self
      rw [insertField, if_neg (lt_asymm hlt), if_neg hlt.ne',
        ih fun f hf => h f (List.mem_cons_of_mem _ hf), List.cons_append]

end Sorting

section Values

/-- An integer that was read is read back. -/
theorem value?_ofInt_of_value? {n : Numeral} {i : Int} (h : n.value? = some (.integer i)) :
    (Numeral.ofInt i).value? = some (.integer i) := by
  have hinteger : n.integer? = some i := by
    unfold Numeral.value? at h
    split at h
    · rename_i j hj
      obtain rfl : j = i := by simpa using h
      exact hj
    · cases hfloat : n.float? with
      | none => simp [hfloat] at h
      | some x => simp [hfloat] at h
  unfold Numeral.integer? at hinteger
  dsimp only at hinteger
  split at hinteger
  · simp at hinteger
  · split at hinteger
    · split at hinteger
      · rename_i hrange
        simp only [Bool.and_eq_true, decide_eq_true_eq] at hrange
        obtain rfl := Option.some.inj hinteger
        have hpow : Nat.pow 2 63 < Numeral.wordLimit := by decide
        exact value?_ofInt (by omega) (by omega)
      · simp at hinteger
    · split at hinteger
      · rename_i hrange
        obtain rfl := Option.some.inj hinteger
        exact value?_ofInt (by omega) (by omega)
      · simp at hinteger

/-- Fields are sorted by name, and their values are read back unless they hold floating-point
numbers. -/
structure SoundFields (b : Nat) (fields : List (String × Json)) : Prop where
  sorted : Sorted fields
  readsBack {f : String × Json} : f ∈ fields → f.2.FloatFree → (ofJson f.2).value b = .ok f.2

theorem soundFields_nil (b : Nat) : SoundFields b [] :=
  ⟨.nil, fun h => absurd h (by simp)⟩

theorem SoundFields.insertField {b : Nat} {fields : List (String × Json)}
    (h : SoundFields b fields)
    (key : String) {v : Json} (hv : v.FloatFree → (ofJson v).value b = .ok v) :
    SoundFields b (insertField key v fields) := by
  refine ⟨h.sorted.insertField key v, fun {f} hf => ?_⟩
  rcases mem_insertField hf with rfl | hf
  · exact hv
  · exact h.readsBack hf

/-- Sorted fields are read as they stand. -/
theorem fieldValues_ofFields {b : Nat} {known fields : List (String × Json)}
    (h : SoundFields b (known ++ fields)) (hfree : ∀ f ∈ fields, f.2.FloatFree) :
    Draft.fieldValues b known (ofFields fields) = .ok (known ++ fields) := by
  induction fields generalizing known with
  | nil => rw [ofFields, Draft.fieldValues, List.append_nil]
  | cons f fields ih =>
      obtain ⟨key, v⟩ := f
      have hv := h.readsBack (f := (key, v)) (by simp) (hfree (key, v) List.mem_cons_self)
      have hlast : ∀ g ∈ known, g.1 < key := by
        intro g hg
        exact (List.pairwise_append.1 h.sorted).2.2 g hg (key, v) List.mem_cons_self
      have hassoc : known ++ (key, v) :: fields = (known ++ [(key, v)]) ++ fields := by simp
      rw [ofFields, Draft.fieldValues, hv]
      rw [hassoc] at h ⊢
      have hrest := ih h fun g hg => hfree g (List.mem_cons_of_mem _ hg)
      rw [← insertField_of_forall_lt hlast] at hrest ⊢
      exact hrest

mutual

/-- A value that was read is read back, unless it holds floating-point numbers. -/
theorem value_ofJson :
    ∀ (d : Draft) {a b : Nat} {v : Json}, d.value a = .ok v → d.nesting ≤ b →
    v.FloatFree → (ofJson v).value b = .ok v
  | .null, _, _, _, h, _, _ => by
      rw [Draft.value] at h
      rw [← Except.ok.inj h, ofJson, Draft.value]
  | .bool _, _, _, _, h, _, _ => by
      rw [Draft.value] at h
      rw [← Except.ok.inj h, ofJson, Draft.value]
  | .number n, _, _, v, h, _, hfree => by
      rw [Draft.value] at h
      cases hvalue : n.value? with
      | none => simp [hvalue] at h
      | some number =>
          rw [hvalue] at h
          obtain rfl := Except.ok.inj h
          cases hfree with
          | integer i => rw [ofJson, Draft.value, value?_ofInt_of_value? hvalue]
  | .string _, _, _, _, h, _, _ => by
      rw [Draft.value] at h
      rw [← Except.ok.inj h, ofJson, Draft.value]
  | .unreadable, _, _, _, h, _, _ => by simp [Draft.value] at h
  | .broken _, _, _, _, h, _, _ => by simp [Draft.value] at h
  | .array items, a, b, v, h, hnesting, hfree => by
      rw [Draft.nesting] at hnesting
      obtain ⟨b, rfl⟩ :=
        Nat.exists_eq_add_of_le' (Nat.le_trans (Nat.le_add_left 1 _) hnesting)
      cases a with
      | zero => simp [Draft.value] at h
      | succ a =>
          rw [Draft.value] at h
          obtain ⟨vs, hvalues, rfl⟩ := map_eq_ok_iff.1 h
          rw [ofJson, Draft.value]
          rw [values_ofItems items hvalues (Nat.le_of_succ_le_succ hnesting) hfree.items]
          rfl
  | .object fields, a, b, v, h, hnesting, hfree => by
      rw [Draft.nesting] at hnesting
      obtain ⟨b, rfl⟩ :=
        Nat.exists_eq_add_of_le' (Nat.le_trans (Nat.le_add_left 1 _) hnesting)
      cases a with
      | zero => simp [Draft.value] at h
      | succ a =>
          rw [Draft.value] at h
          obtain ⟨fs, hvalues, rfl⟩ := map_eq_ok_iff.1 h
          -- Reading has sorted the fields, so reading them again puts each one at the end.
          have hsound := soundFields_of_fieldValues fields hvalues
            (Nat.le_of_succ_le_succ hnesting) (soundFields_nil b)
          have hread := fieldValues_ofFields (List.nil_append fs ▸ hsound) hfree.fields
          rw [List.nil_append] at hread
          rw [ofJson, Draft.value, hread]
          rfl

theorem values_ofItems : ∀ (items : List Draft) {a b : Nat} {vs : List Json},
    Draft.values a items = .ok vs → Draft.nestingAll items ≤ b → (∀ v ∈ vs, v.FloatFree) →
    Draft.values b (ofItems vs) = .ok vs
  | [], _, _, _, h, _, _ => by
      rw [Draft.values] at h
      rw [← Except.ok.inj h, ofItems, Draft.values]
  | d :: items, a, b, vs, h, hnesting, hfree => by
      rw [Draft.nestingAll] at hnesting
      rw [Draft.values] at h
      obtain ⟨v, hv, h⟩ := bind_eq_ok_iff.1 h
      obtain ⟨vs', hvs, h⟩ := bind_eq_ok_iff.1 h
      obtain rfl := Except.ok.inj h
      have hfirst := value_ofJson d hv (Nat.le_trans (Nat.le_max_left _ _) hnesting)
        (hfree v List.mem_cons_self)
      have hrest := values_ofItems items hvs (Nat.le_trans (Nat.le_max_right _ _) hnesting)
        fun w hw => hfree w (List.mem_cons_of_mem _ hw)
      rw [ofItems, Draft.values]
      rw [hfirst, hrest]
      rfl

theorem soundFields_of_fieldValues : ∀ (fields : List (Draft × Draft)) {a b : Nat}
    {known fs : List (String × Json)}, Draft.fieldValues a known fields = .ok fs →
    Draft.nestingFields fields ≤ b → SoundFields b known → SoundFields b fs
  | [], _, _, _, _, h, _, hknown => by
      rw [Draft.fieldValues] at h
      rwa [← Except.ok.inj h]
  | (name, d) :: fields, a, b, known, fs, h, hnesting, hknown => by
      rw [Draft.nestingFields] at hnesting
      cases name with
      | string key =>
          rw [Draft.fieldValues] at h
          obtain ⟨v, hv, h⟩ := bind_eq_ok_iff.1 h
          have hvalue := value_ofJson d hv (Nat.le_trans (Nat.le_max_left _ _) hnesting)
          exact soundFields_of_fieldValues fields h
            (Nat.le_trans (Nat.le_max_right _ _) hnesting) (hknown.insertField key hvalue)
      | _ => simp [Draft.fieldValues] at h

end

end Values

end Json
end DocLinks
