import Mathlib.Data.List.Nodup
import DocLinks.Json.Form
import DocLinks.Json.Writer
import DocLinks.Proofs.ListSteps
import DocLinks.Proofs.ReadValues

/-!
# Forms that read back what they write

A value that was read from a draft is written, and what is written is read as the same value,
if one more level of nesting than that of the draft is allowed.  One level is what a form may
add: a text may be written as a list of one text.

**Invariant.**  While the fields of a record are read, a predicate `Sound` holds of the
record: all that is in it is read back.  While they are read again, the record is the given
one as far as they have come.

**Results.**
* `Faithful.option`, `Faithful.list`: forms made of faithful forms are faithful.
* `RestoresAll.readFields_written`: written fields are read one after the other.
* `Record.Restorable.faithful`: a record that keeps unknown fields is faithful if its fields
  can be read back one after the other.
-/

namespace DocLinks
namespace Json

open Draft (ofJson ofItems ofFields)

namespace Form

variable {α β : Type} {f : Form α} {P : α → Prop}

/-- Whether a value that has the given property is read back from what is written for it. -/
def ReadsBack (f : Form α) (P : α → Prop) (b : Nat) (x : α) : Prop :=
  P x → f.read b (ofJson (f.write x)) = .ok x

/-- Values that were read are read back, and nothing that is written holds floating-point
numbers. -/
structure Faithful (f : Form α) (P : α → Prop) : Prop where
  readsBack {a b : Nat} {d : Draft} {x : α} :
    f.read a d = .ok x → d.nesting < b → f.ReadsBack P b x
  floatFree {x : α} : P x → (f.write x).FloatFree

/-- Every value is read back, however it came about, if so many levels of nesting are
allowed. -/
structure Plain (f : Form α) (levels : Nat) : Prop where
  readsBack {b : Nat} (h : levels ≤ b) (x : α) : f.read b (ofJson (f.write x)) = .ok x
  floatFree (x : α) : (f.write x).FloatFree

theorem Plain.faithful (h : f.Plain 1) (P : α → Prop) : f.Faithful P :=
  ⟨fun _ hb _ => h.readsBack (Nat.one_le_of_lt hb) _, fun _ => h.floatFree _⟩

theorem Faithful.imp {Q : α → Prop} (h : f.Faithful P)
    (hQ : ∀ x, Q x → P x) : f.Faithful Q :=
  ⟨fun hread hb hx => h.readsBack hread hb (hQ _ hx), fun hx => h.floatFree (hQ _ hx)⟩

theorem text_plain : text.Plain 0 :=
  ⟨fun _ _ => rfl, fun s => .string s⟩

theorem flag_plain : flag.Plain 0 :=
  ⟨fun _ _ => rfl, fun b => .bool b⟩

theorem read_option {a : Nat} {d : Draft} (h : d ≠ .null) :
    f.option.read a d = (f.read a d).map some := by
  cases d with
  | null => exact absurd rfl h
  | _ => rfl

theorem ofJson_ne_null {j : Json} (h : j ≠ .null) : ofJson j ≠ .null := by
  cases j with
  | null => exact absurd rfl h
  | number n => cases n <;> simp [ofJson]
  | _ => simp [ofJson]

/-- What is not written as null is read back as an optional value. -/
theorem read_option_some {b : Nat} {x : α} (hnull : f.write x ≠ .null)
    (h : f.read b (ofJson (f.write x)) = .ok x) :
    f.option.read b (ofJson (f.option.write (some x))) = .ok (some x) := by
  refine (read_option (ofJson_ne_null hnull)).trans ?_
  rw [h, Except.map]

theorem Plain.option {n : Nat} (h : f.Plain n) (hnull : ∀ x, f.write x ≠ .null) :
    f.option.Plain n where
  readsBack hb
    | none => rfl
    | some x => read_option_some (hnull x) (h.readsBack hb x)
  floatFree
    | none => .null
    | some x => h.floatFree x

theorem Faithful.option (h : f.Faithful P) (hnull : ∀ x, f.write x ≠ .null) :
    f.option.Faithful fun o => ∀ x ∈ o, P x where
  readsBack {a b d o} hread hb ho := by
    cases o with
    | none => rfl
    | some x =>
        have hd : d ≠ .null := by
          rintro rfl
          simp [Form.option] at hread
        rw [read_option hd] at hread
        obtain ⟨y, hy, hsame⟩ := map_eq_ok_iff.1 hread
        obtain rfl := Option.some.inj hsame
        exact read_option_some (hnull y) (h.readsBack hy hb (ho y rfl))
  floatFree {o} ho := by
    cases o with
    | none => exact .null
    | some x => exact h.floatFree (ho x rfl)

/-- A list is read back if its items are, one level deeper. -/
theorem read_list {b : Nat} {xs : List α}
    (h : ∀ x ∈ xs, f.read b (ofJson (f.write x)) = .ok x) :
    f.list.read (b + 1) (ofJson (f.list.write xs)) = .ok xs := by
  have hitems : ofItems (xs.map f.write) = xs.map fun x => ofJson (f.write x) := by
    rw [Draft.ofItems_eq_map, List.map_map]
    rfl
  change (ofItems (xs.map f.write)).mapM (f.read b) = .ok xs
  rw [hitems, mapM_eq_ok_iff]
  rw [List.forall₂_map_left_iff, List.forall₂_same]
  exact h

theorem Plain.list {n : Nat} (h : f.Plain n) : f.list.Plain (n + 1) where
  readsBack hb xs := by
    obtain ⟨b, rfl⟩ := Nat.exists_eq_add_of_le' (Nat.le_trans (Nat.le_add_left 1 n) hb)
    exact read_list fun x _ => h.readsBack (Nat.le_of_succ_le_succ hb) x
  floatFree xs := .array (by simpa using fun x _ => h.floatFree x)

theorem Faithful.list (h : f.Faithful P) : f.list.Faithful fun xs => ∀ x ∈ xs, P x where
  readsBack {a b d xs} hread hb hxs := by
    cases d with
    | array items =>
        rw [Draft.nesting] at hb
        obtain ⟨b, rfl⟩ := Nat.exists_eq_add_of_le' (Nat.one_le_of_lt hb)
        cases a with
        | zero => simp [Form.list] at hread
        | succ a =>
            refine read_list fun x hx => ?_
            obtain ⟨d, hd, hfrom⟩ := exists_mem_of_mapM_eq_ok hread hx
            exact h.readsBack hfrom
              (Nat.lt_of_le_of_lt (Draft.nesting_le_nestingAll hd)
                (Nat.lt_of_succ_lt_succ hb)) (hxs x hx)
    | _ => simp [Form.list] at hread
  floatFree {xs} hxs := .array (by simpa using fun x hx => h.floatFree (hxs x hx))

/-- A value that is read from another one is read back if a round trip of it ends where it
began. -/
theorem Plain.map {forth : α → β} {back : β → α} (h : f.Plain 0)
    (hback : ∀ x, forth (back (forth x)) = forth x) (Q : β → Prop) :
    (f.map forth back).Faithful Q where
  readsBack {a b d y} hread _ _ := by
    obtain ⟨x, -, rfl⟩ := map_eq_ok_iff.1 hread
    change (f.read b (ofJson (f.write (back (forth x))))).map forth = .ok (forth x)
    rw [h.readsBack (Nat.zero_le b), Except.map, hback]
  floatFree _ := h.floatFree _

/-- Numbers are read back if the bound is a number of one machine word. -/
theorem natBelow_faithful {bound : Nat} (hbound : bound ≤ Numeral.wordLimit)
    (P : Nat → Prop) :
    (natBelow bound).Faithful P where
  readsBack {a b d n} hread _ _ := by
    have hn : n < bound := by
      cases d with
      | number m =>
          simp only [natBelow] at hread
          split at hread
          · split at hread
            · rename_i hrange
              obtain rfl := Except.ok.inj hread
              simp only [Bool.and_eq_true, decide_eq_true_eq] at hrange
              omega
            · simp at hread
          · simp at hread
          · simp at hread
      | _ => simp [natBelow] at hread
    have hvalue : (Numeral.ofInt n).value? = some (.integer n) :=
      value?_ofInt (by omega) (by omega)
    change (natBelow bound).read b (.number (.ofInt n)) = .ok n
    simp only [natBelow, hvalue]
    rw [if_pos (by simpa using hn), Int.toNat_natCast]
  floatFree _ := .integer _

/-- Whatever was read from a text is read back from the text that is written for it, if one
more level of nesting is allowed. -/
theorem Faithful.readText_write (h : f.Faithful P) {text : String} {x : α}
    (hread : f.readText text = .ok x)
    (hnesting : (Draft.ofText text.toList).root.nesting < maxNesting)
    (hx : P x) (l : Layout) : f.readText (Json.write l (f.write x)) = .ok x := by
  have hroot : f.read maxNesting (Draft.ofText text.toList).root = .ok x := by
    obtain ⟨y, hy, hdone⟩ := bind_eq_ok_iff.1 hread
    split at hdone
    · cases hdone
    · exact Except.ok.inj hdone ▸ hy
  have hback := h.readsBack hroot hnesting hx
  rw [readText, Json.write]
  rw [String.toList_ofList, ofText_writeAt l (h.floatFree hx)]
  simp only [hback]
  rfl

end Form

section Fields

variable {ρ α : Type} {b : Nat} {Sound P : ρ → Prop} {f : Form α}
  {get : ρ → α} {set : ρ → α → ρ}

/-- A place of a record whose value is read back. -/
structure Returns (b : Nat) (Sound P : ρ → Prop) (f : Form α) (get : ρ → α)
    (set : ρ → α → ρ) : Prop where
  sound {a : Nat} {d : Draft} {x : α} {r : ρ} :
    f.read a d = .ok x → d.nesting < b → Sound r → Sound (set r x)
  floatFree {r : ρ} : P r → (f.write (get r)).FloatFree
  readsBack {r : ρ} : Sound r → P r → f.read b (ofJson (f.write (get r))) = .ok (get r)

theorem Form.Plain.returns {n : Nat} (h : f.Plain n) (hb : n ≤ b)
    (hset : ∀ r x, Sound r → Sound (set r x)) : Returns b Sound P f get set :=
  ⟨fun _ _ => hset _ _, fun _ => h.floatFree _, fun _ _ => h.readsBack hb _⟩

theorem Form.Faithful.returns {Q : α → Prop} (h : f.Faithful Q)
    (hfree : ∀ r, P r → Q (get r))
    (hget : ∀ r, Sound r → f.ReadsBack Q b (get r))
    (hset : ∀ r x, f.ReadsBack Q b x → Sound r → Sound (set r x)) :
    Returns b Sound P f get set :=
  ⟨fun hread hb => hset _ _ (h.readsBack hread hb), fun hr => h.floatFree (hfree _ hr),
    fun hr hP => hget _ hr (hfree _ hP)⟩

/-- Reading a field that was written takes a record from `start` on to `next`. -/
structure Restores (b : Nat) (Sound P : ρ → Prop) (fld : RecordField ρ)
    (start next : ρ → ρ) : Prop where
  sound {a : Nat} {d : Draft} {r r' : ρ} :
    fld.read a d r = .ok r' → d.nesting < b → Sound r → Sound r'
  isWritten {r : ρ} : fld.required = true → fld.write r ≠ none
  floatFree {r : ρ} {j : Json} : P r → fld.write r = some j → j.FloatFree
  readsBack {r : ρ} {j : Json} : Sound r → P r → fld.write r = some j →
    fld.read b (ofJson j) (start r) = .ok (next r)
  leftOut {r : ρ} : fld.write r = none → next r = start r

variable {key : String} {start : ρ → ρ}

theorem Returns.of (h : Returns b Sound P f get set) {leftOut : α → Bool}
    (hskip : ∀ r, leftOut (get r) = true → set (start r) (get r) = start r) :
    Restores b Sound P (.of key f get set leftOut) start fun r => set (start r) (get r) where
  sound hread hb hr := by
    obtain ⟨x, hx, rfl⟩ := map_eq_ok_iff.1 hread
    exact h.sound hx hb hr
  isWritten hrequired := by simp [RecordField.of] at hrequired
  floatFree {r j} hP hj := by
    simp only [RecordField.of] at hj
    split at hj
    · simp at hj
    · exact Option.some.inj hj ▸ h.floatFree hP
  readsBack {r j} hr hP hj := by
    simp only [RecordField.of] at hj ⊢
    split at hj
    · simp at hj
    · rw [← Option.some.inj hj, h.readsBack hr hP, Except.map]
  leftOut {r} hnone := by
    simp only [RecordField.of] at hnone
    split at hnone
    · exact hskip r ‹_›
    · simp at hnone

theorem Returns.always (h : Returns b Sound P f get set) :
    Restores b Sound P (.always key f get set) start fun r => set (start r) (get r) :=
  h.of (by simp)

theorem Returns.mandatory (h : Returns b Sound P f get set) :
    Restores b Sound P (.mandatory key f get set) start fun r => set (start r) (get r) :=
  have hof : Restores b Sound P (.always key f get set) start fun r =>
      set (start r) (get r) := h.always
  { hof with isWritten := fun _ => by simp [RecordField.mandatory, RecordField.of] }

theorem Returns.optional {get : ρ → Option α} {set : ρ → Option α → ρ}
    (h : Returns b Sound P f.option get set) (hsame : ∀ r, set r (get r) = r)
    (hstart : ∀ r, get (start r) = none) :
    Restores b Sound P (.optional key f get set) start fun r => set (start r) (get r) :=
  h.of fun r hnone => by rw [Option.isNone_iff_eq_none.1 hnone, ← hstart r, hsame]

theorem Form.Plain.optional {get : ρ → Option α} {set : ρ → Option α → ρ} (h : f.Plain 0)
    (hnull : ∀ x, f.write x ≠ .null) (hset : ∀ r x, Sound r → Sound (set r x))
    (hsame : ∀ r, set r (get r) = r) (hstart : ∀ r, get (start r) = none) :
    Restores b Sound P (.optional key f get set) start fun r => set (start r) (get r) :=
  ((h.option hnull).returns (Nat.zero_le b) hset).optional hsame hstart

theorem Restores.flag {get : ρ → Bool} {set : ρ → Bool → ρ}
    (hset : ∀ r x, Sound r → Sound (set r x))
    (hsame : ∀ r, set r (get r) = r) (hstart : ∀ r, get (start r) = false) :
    Restores b Sound P (.flag key get set) start fun r => set (start r) (get r) :=
  (Form.flag_plain.returns (Nat.zero_le b) hset).of fun r hfalse => by
    rw [Bool.eq_false_of_not_eq_true' hfalse, ← hstart r, hsame]

theorem Returns.list {f : Form (List α)} {get : ρ → List α} {set : ρ → List α → ρ}
    (h : Returns b Sound P f get set) (hsame : ∀ r, set r (get r) = r)
    (hstart : ∀ r, get (start r) = []) :
    Restores b Sound P (.of key f get set List.isEmpty) start fun r =>
      set (start r) (get r) :=
  h.of fun r hempty => by rw [List.isEmpty_iff.1 hempty, ← hstart r, hsame]

/-- Reading the fields that were written takes a record from `start` on to `stop`. -/
inductive RestoresAll (b : Nat) (Sound P : ρ → Prop) :
    List (RecordField ρ) → (ρ → ρ) → (ρ → ρ) → Prop
  | nil {start stop : ρ → ρ} (h : ∀ r, start r = stop r) :
      RestoresAll b Sound P [] start stop
  | cons {fld : RecordField ρ} {fields : List (RecordField ρ)} {start next stop : ρ → ρ}
      (h : Restores b Sound P fld start next)
        (hrest : RestoresAll b Sound P fields next stop) :
      RestoresAll b Sound P (fld :: fields) start stop

variable {fields : List (RecordField ρ)} {stop : ρ → ρ}

theorem RestoresAll.sound (h : RestoresAll b Sound P fields start stop) {fld : RecordField ρ}
    (hfld : fld ∈ fields) {a : Nat} {d : Draft} {r r' : ρ} (hread : fld.read a d r = .ok r')
    (hb : d.nesting < b) (hr : Sound r) : Sound r' := by
  induction h with
  | nil => simp at hfld
  | cons h _ ih =>
      rcases List.mem_cons.1 hfld with rfl | hfld
      · exact h.sound hread hb hr
      · exact ih hfld

/-- The known fields of a record as they are written. -/
def writtenFields (fields : List (RecordField ρ)) (r : ρ) : List (String × Json) :=
  fields.filterMap fun fld => (fld.write r).map fun j => (fld.key, j)

theorem writtenFields_eq_map (fields : List (RecordField ρ)) (r : ρ) :
    writtenFields fields r =
      (fields.map fun fld => (fld.write r).map fun j => (fld.key, j)).filterMap id := by
  rw [List.filterMap_map]
  rfl

theorem RestoresAll.floatFree (h : RestoresAll b Sound P fields start stop)
    {r : ρ} (hP : P r) :
    ∀ g ∈ writtenFields fields r, g.2.FloatFree := by
  induction h with
  | nil => simp [writtenFields]
  | @cons fld fields start next stop h _ ih =>
      intro g hg
      rw [writtenFields, List.filterMap_cons] at hg
      cases hwrite : fld.write r with
      | none =>
          rw [hwrite] at hg
          exact ih g hg
      | some j =>
          rw [hwrite] at hg
          rcases List.mem_cons.1 hg with rfl | hg
          · exact h.floatFree hP hwrite
          · exact ih g hg

/-- Written fields are read one after the other, and each one that must be present is. -/
theorem RestoresAll.readFields_written {s : Record ρ}
    (h : RestoresAll b Sound P fields start stop)
    {r : ρ} (hr : Sound r) (hP : P r) {seen : List String}
    (hknown : ∀ fld ∈ fields, s.field? fld.key = some fld)
    (hnodup : (fields.map (·.key)).Nodup)
    (hseen : ∀ fld ∈ fields, fld.key ∉ seen) :
    ∃ seen', (∀ key ∈ seen, key ∈ seen') ∧
      (∀ fld ∈ fields, fld.required = true → fld.key ∈ seen') ∧
      s.readFields b seen (start r) (ofFields (writtenFields fields r)) =
        .ok (seen', stop r) := by
  -- The names read so far are those of the fields in front, so none of them comes again.
  induction h generalizing seen with
  | nil h => exact ⟨seen, fun _ hkey => hkey, by simp, by rw [← h]; rfl⟩
  | @cons fld fields start next stop h _ ih =>
      rw [List.map_cons, List.nodup_cons] at hnodup
      have hknown' : ∀ g ∈ fields, s.field? g.key = some g := fun g hg =>
        hknown g (List.mem_cons_of_mem _ hg)
      have hseen' : ∀ g ∈ fields, g.key ∉ seen :=
        fun g hg => hseen g (List.mem_cons_of_mem _ hg)
      rw [writtenFields, List.filterMap_cons]
      cases hwrite : fld.write r with
      | none =>
          obtain ⟨seen', hkeep, hrequired, hread⟩ := ih hknown' hnodup.2 hseen'
          refine ⟨seen', hkeep, fun g hg hg' => ?_, by rwa [h.leftOut hwrite] at hread⟩
          rcases List.mem_cons.1 hg with rfl | hg
          · exact absurd hwrite (h.isWritten hg')
          · exact hrequired g hg hg'
      | some j =>
          have hnew : ∀ g ∈ fields, g.key ∉ fld.key :: seen := by
            intro g hg hmem
            rcases List.mem_cons.1 hmem with hsame | hmem
            · exact hnodup.1 (List.mem_map.2 ⟨g, hg, hsame⟩)
            · exact hseen' g hg hmem
          obtain ⟨seen', hkeep, hrequired, hread⟩ := ih hknown' hnodup.2 hnew
          refine ⟨seen', fun key hkey => hkeep key (List.mem_cons_of_mem _ hkey),
            fun g hg hg' => ?_, ?_⟩
          · rcases List.mem_cons.1 hg with rfl | hg
            · exact hkeep _ List.mem_cons_self
            · exact hrequired g hg hg'
          · have hfirst : ¬ seen.contains fld.key = true := by
              simpa using hseen fld List.mem_cons_self
            simp only [Option.map_some, ofFields, Record.readFields]
            rw [hknown fld List.mem_cons_self]
            simp only [hfirst, h.readsBack hr hP hwrite]
            exact hread

end Fields

namespace Record

variable {ρ : Type}

theorem field?_of_mem {s : Record ρ} (hnodup : (s.fields.map (·.key)).Nodup)
    {fld : RecordField ρ}
    (h : fld ∈ s.fields) : s.field? fld.key = some fld := by
  rw [field?]
  generalize s.fields = fields at hnodup h
  induction fields with
  | nil => simp at h
  | cons g fields ih =>
      rw [List.map_cons, List.nodup_cons] at hnodup
      rcases List.mem_cons.1 h with rfl | h
      · simp
      · have hne : g.key ≠ fld.key :=
          fun hsame => hnodup.1 (List.mem_map.2 ⟨fld, h, hsame.symm⟩)
        rw [List.find?_cons_of_neg (by simpa using hne)]
        exact ih hnodup.2 h

theorem readFields_append (s : Record ρ) (b : Nat) (ds es : List (Draft × Draft))
    (seen : List String)
    (r : ρ) : s.readFields b seen r (ds ++ es) =
      (s.readFields b seen r ds).bind fun p => s.readFields b p.1 p.2 es := by
  induction ds generalizing seen r with
  | nil => rfl
  | cons d ds ih =>
      obtain ⟨name, d⟩ := d
      cases name with
      | string key =>
          simp only [List.cons_append, readFields]
          cases s.field? key with
          | none =>
              dsimp only
              cases hread : s.unknown b key d r with
              | error p => rfl
              | ok r' => exact ih seen r'
          | some fld =>
              dsimp only
              split
              · rfl
              · cases hread : fld.read b d r with
                | error p => rfl
                | ok r' => exact ih (key :: seen) r'
      | _ => rfl

/-- What every field keeps, known or not, holds once all have been read. -/
theorem sound_of_readFields {s : Record ρ} {a b : Nat} {Sound : ρ → Prop}
    (hfield : ∀ fld ∈ s.fields, ∀ {d r r'}, fld.read a d r = .ok r' → d.nesting < b →
      Sound r → Sound r')
    (hunknown : ∀ {key d r r'}, s.field? key = none →
      s.unknown a key d r = .ok r' → d.nesting < b →
      Sound r → Sound r')
    {seen : List String} {r : ρ} {ds : List (Draft × Draft)} {seen' : List String} {r' : ρ}
    (hread : s.readFields a seen r ds = .ok (seen', r')) (hb : Draft.nestingFields ds < b)
    (hr : Sound r) : Sound r' := by
  induction ds generalizing seen r with
  | nil =>
      obtain ⟨-, rfl⟩ := Prod.mk.inj (Except.ok.inj hread)
      exact hr
  | cons d ds ih =>
      obtain ⟨name, d⟩ := d
      rw [Draft.nestingFields] at hb
      have hd : d.nesting < b := Nat.lt_of_le_of_lt (Nat.le_max_left _ _) hb
      have hds : Draft.nestingFields ds < b := Nat.lt_of_le_of_lt (Nat.le_max_right _ _) hb
      cases name with
      | string key =>
          rw [readFields] at hread
          cases hfind : s.field? key with
          | none =>
              simp only [hfind] at hread
              obtain ⟨r₁, hfirst, hrest⟩ := bind_eq_ok_iff.1 hread
              exact ih hrest hds (hunknown hfind hfirst hd hr)
          | some fld =>
              simp only [hfind] at hread
              split at hread
              · simp at hread
              · obtain ⟨r₁, hfirst, hrest⟩ := bind_eq_ok_iff.1 hread
                exact ih hrest hds
                  (hfield fld (List.mem_of_find?_eq_some hfind) hfirst hd hr)
      | _ => simp [readFields] at hread

/-- Unknown fields that are read back: none has the name of a known one. -/
structure KeptFields (b : Nat) (known : List String)
    (fields : List (String × Json)) : Prop where
  sound : SoundFields b fields
  unknown : ∀ g ∈ fields, g.1 ∉ known

theorem keptFields_nil (b : Nat) (known : List String) : KeptFields b known [] :=
  ⟨soundFields_nil b, by simp⟩

/-- The place of the unknown fields in a record. -/
structure ExtraPlace (extra : ρ → List (String × Json))
    (setExtra : ρ → List (String × Json) → ρ) :
    Prop where
  extra_setExtra (r : ρ) (fields : List (String × Json)) : extra (setExtra r fields) = fields
  setExtra_setExtra (r : ρ) (fields more : List (String × Json)) :
    setExtra (setExtra r fields) more = setExtra r more
  setExtra_extra (r : ρ) : setExtra r (extra r) = r

variable {fields : List (RecordField ρ)} {blank : ρ} {extra : ρ → List (String × Json)}
  {setExtra : ρ → List (String × Json) → ρ}

theorem field?_eq_none_iff {s : Record ρ} {key : String} :
    s.field? key = none ↔ key ∉ s.fields.map (·.key) := by
  simp [field?]

/-- Unknown fields are read as they stand. -/
theorem readFields_extra (hplace : ExtraPlace extra setExtra) {b : Nat}
    {seen : List String} {r : ρ}
    {known more : List (String × Json)}
    (h : KeptFields b (fields.map (·.key)) (known ++ more))
    (hfree : ∀ g ∈ more, g.2.FloatFree) :
    (keeping fields blank extra setExtra).readFields b seen
      (setExtra r known) (ofFields more) =
      .ok (seen, setExtra r (known ++ more)) := by
  induction more generalizing known with
  | nil => rw [ofFields, readFields, List.append_nil]
  | cons g more ih =>
      obtain ⟨key, v⟩ := g
      have hv :=
        h.sound.readsBack (f := (key, v)) (by simp) (hfree (key, v) List.mem_cons_self)
      have hlast : ∀ g ∈ known, g.1 < key := by
        intro g hg
        exact (List.pairwise_append.1 h.sound.sorted).2.2 g hg (key, v) List.mem_cons_self
      have hunknown : (keeping fields blank extra setExtra).field? key = none :=
        field?_eq_none_iff.2 (h.unknown (key, v) (by simp))
      have hassoc : known ++ (key, v) :: more = (known ++ [(key, v)]) ++ more := by simp
      rw [hassoc] at h ⊢
      have hrest := ih h fun g hg => hfree g (List.mem_cons_of_mem _ hg)
      rw [ofFields, readFields, hunknown]
      change ((ofJson v).value b).map _ >>= _ = _
      rw [hv, Except.map, hplace.extra_setExtra]
      rw [hplace.setExtra_setExtra, insertField_of_forall_lt hlast]
      exact hrest

/-- Reading an object is reading its fields, of which none that must be present is
missing. -/
theorem read_object_eq_ok_iff {s : Record ρ} {a : Nat} {ds : List (Draft × Draft)} {r : ρ} :
    s.read (a + 1) (.object ds) = .ok r ↔
    ∃ seen, s.readFields a [] s.blank ds = .ok (seen, r) ∧
      ∀ fld ∈ s.fields, fld.required = true → fld.key ∈ seen := by
  have hall (seen : List String) :
      (s.fields.all fun fld => !fld.required || seen.contains fld.key) = true ↔
      ∀ fld ∈ s.fields, fld.required = true → fld.key ∈ seen := by
    simp only [List.all_eq_true, Bool.or_eq_true, Bool.not_eq_true', List.contains_iff_mem,
      ← Bool.not_eq_true, ← imp_iff_not_or]
  simp only [read]
  constructor
  · intro hread
    obtain ⟨⟨seen, r'⟩, hfields, hdone⟩ := bind_eq_ok_iff.1 hread
    split at hdone
    · obtain rfl := Except.ok.inj hdone
      exact ⟨seen, hfields, (hall seen).1 ‹_›⟩
    · cases hdone
  · rintro ⟨seen, hfields, hrequired⟩
    exact bind_eq_ok_iff.2 ⟨(seen, r), hfields, if_pos ((hall seen).2 hrequired)⟩

/-- What is known of a record that keeps unknown fields: `Sound` holds of it before anything
is read and whatever is read, and its known fields can be read back one after the other. -/
structure Restorable (fields : List (RecordField ρ)) (blank : ρ)
    (extra : ρ → List (String × Json))
    (setExtra : ρ → List (String × Json) → ρ) (Sound : Nat → ρ → Prop)
    (P : ρ → Prop) : Prop where
  nodup_keys : (fields.map (·.key)).Nodup
  place : ExtraPlace extra setExtra
  sound_blank {b : Nat} : 0 < b → Sound b blank
  restores {b : Nat} : 0 < b → RestoresAll b (Sound b) P fields (fun _ => blank)
    fun r => setExtra r []
  kept {b : Nat} {r : ρ} : Sound b r → KeptFields b (fields.map (·.key)) (extra r)
  sound_setExtra {b : Nat} {r : ρ} {more : List (String × Json)} :
    KeptFields b (fields.map (·.key)) more → Sound b r → Sound b (setExtra r more)
  floatFree_extra {r : ρ} : P r → ∀ g ∈ extra r, g.2.FloatFree

variable {Sound : Nat → ρ → Prop} {P : ρ → Prop} {a b : Nat} {r : ρ}

theorem Restorable.sound_of_read (h : Restorable fields blank extra setExtra Sound P)
    {ds : List (Draft × Draft)} {seen : List String} (hb : Draft.nestingFields ds < b)
    (hread : (keeping fields blank extra setExtra).readFields a
      [] blank ds = .ok (seen, r)) :
    Sound b r := by
  have hpos : 0 < b := Nat.zero_lt_of_lt hb
  refine sound_of_readFields (fun fld hfld => (h.restores hpos).sound hfld) ?_ hread hb
    (h.sound_blank hpos)
  intro key d r₀ r₁ hkey hread hd hr₀
  obtain ⟨v, hv, rfl⟩ := map_eq_ok_iff.1 hread
  have hkept := h.kept hr₀
  refine h.sound_setExtra ⟨hkept.sound.insertField key (value_ofJson d hv hd.le),
    fun g hg => ?_⟩ hr₀
  rcases mem_insertField hg with rfl | hg
  · exact field?_eq_none_iff.1 hkey
  · exact hkept.unknown g hg

theorem Restorable.read_written
    (h : Restorable fields blank extra setExtra Sound P) (hb : 0 < b)
    (hr : Sound b r) (hP : P r) : (keeping fields blank extra setExtra).read (b + 1)
      (.object (ofFields (writtenFields fields r ++ extra r))) = .ok r := by
  have hfield : ∀ fld ∈ fields,
      (keeping fields blank extra setExtra).field? fld.key = some fld :=
    fun _ hfld => field?_of_mem (s := keeping fields blank extra setExtra) h.nodup_keys hfld
  obtain ⟨seen, -, hrequired, hknown⟩ :=
    (h.restores hb).readFields_written hr hP hfield h.nodup_keys fun _ _ => List.not_mem_nil
  have hunknown : (keeping fields blank extra setExtra).readFields b seen (setExtra r [])
      (ofFields (extra r)) = .ok (seen, setExtra r ([] ++ extra r)) :=
    readFields_extra h.place (h.kept hr) (h.floatFree_extra hP)
  -- The known fields lead to the record without unknown ones, which come in their order.
  rw [List.nil_append, h.place.setExtra_extra] at hunknown
  refine read_object_eq_ok_iff.2 ⟨seen, ?_, hrequired⟩
  rw [Draft.ofFields_append, readFields_append]
  change (readFields _ b [] blank _).bind _ = _
  rw [hknown]
  exact hunknown

/-- A record that keeps unknown fields is faithful if its fields can be read back one after
the other. -/
theorem Restorable.faithful (h : Restorable fields blank extra setExtra Sound P) :
    (keeping fields blank extra setExtra).form.Faithful P where
  readsBack {a b d r} hread hb hP := by
    cases d with
    | object ds =>
        cases a with
        | zero => cases hread
        | succ a =>
            rw [Draft.nesting] at hb
            obtain ⟨b, rfl⟩ := Nat.exists_eq_add_of_le' (Nat.one_le_of_lt hb)
            have hb : Draft.nestingFields ds < b := Nat.lt_of_succ_lt_succ hb
            obtain ⟨seen, hds, -⟩ := read_object_eq_ok_iff.1 hread
            exact h.read_written (Nat.zero_lt_of_lt hb) (h.sound_of_read hb hds) hP
    | _ => cases hread
  floatFree {r} hP := by
    refine .object fun g hg => ?_
    rcases List.mem_append.1 hg with hg | hg
    · exact (h.restores Nat.one_pos).floatFree hP g hg
    · exact h.floatFree_extra hP g hg

section Alike

/-- What reading a field depends on at one allowance. -/
def reading (a : Nat) (fld : RecordField ρ) :
    String × Bool × (Draft → ρ → Except Problem ρ) :=
  (fld.key, fld.required, fld.read a)

theorem map_reading_field? (s : Record ρ) (a : Nat) (key : String) :
    (s.field? key).map (reading a) = (s.fields.map (reading a)).find? (·.1 == key) := by
  rw [List.find?_map]
  rfl

variable {s t : Record ρ} {a : Nat}

theorem readFields_congr (hfields : s.fields.map (reading a) = t.fields.map (reading a))
    (hunknown : s.unknown = t.unknown) (seen : List String) (r : ρ)
    (ds : List (Draft × Draft)) :
    s.readFields a seen r ds = t.readFields a seen r ds := by
  induction ds generalizing seen r with
  | nil => rfl
  | cons d ds ih =>
      obtain ⟨name, d⟩ := d
      cases name with
      | string key =>
          have hfind : (s.field? key).map (reading a) = (t.field? key).map (reading a) := by
            rw [map_reading_field?, map_reading_field?, hfields]
          rw [readFields, readFields]
          cases hs : s.field? key <;> cases ht : t.field? key <;> rw [hs, ht] at hfind
          · simp only [hunknown, ih]
          · simp at hfind
          · simp at hfind
          · have hread := congrArg (fun p => p.2.2) (Option.some.inj hfind)
            dsimp only [reading] at hread
            simp only [hread, ih]
      | _ => rfl

/-- Records are read alike if their fields are read alike at every smaller allowance. -/
theorem read_congr (hfields : ∀ n < a, s.fields.map (reading n) = t.fields.map (reading n))
    (hblank : s.blank = t.blank) (hunknown : s.unknown = t.unknown)
    (hs : s.positional = false)
    (ht : t.positional = false) (d : Draft) : s.read a d = t.read a d := by
  cases d with
  | object ds =>
      cases a with
      | zero => rfl
      | succ a =>
          have hsame := hfields a (Nat.lt_succ_self a)
          have hall (seen : List String) :
              (s.fields.all fun fld => !fld.required || seen.contains fld.key) =
                t.fields.all fun fld => !fld.required || seen.contains fld.key := by
            have hmap (u : Record ρ) :
                (u.fields.all fun fld => !fld.required || seen.contains fld.key) =
                (u.fields.map (reading a)).all fun p => !p.2.1 || seen.contains p.1 := by
              rw [List.all_map]
              rfl
            rw [hmap, hmap, hsame]
          simp only [read, hblank, readFields_congr hsame hunknown, hall]
  | array items => simp only [read, hs, ht, Bool.false_eq_true, if_false]
  | _ => rfl

end Alike

end Record

end Json
end DocLinks
