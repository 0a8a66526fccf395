import Mathlib.Data.List.MinMax
import DocLinks.Doclet.Form
import DocLinks.Json.Writer
import DocLinks.Proofs.FormLaws

/-!
# Doclets that are read back

Doclets that were read from a text are written as another text: fields in a fixed order, what
is empty left out, a single author as a list, an example as an object, unknown fields sorted
and last.  Nothing is lost on the way: what is read from the new text is the same.

**Invariant.**  For each record a structure `Sound` names the places whose values are read
back only because they were read before: kinds and scopes, line numbers, records in the
record, and unknown fields. Texts, flags and lists of texts are read back whatever they are.

**Results.**
* `TypeSpec.faithful`, `Param.faithful`, `Meta.faithful`: the records inside a doclet are
  faithful.
* `Doclet.read_formTo_eq`, `Doclet.write_formTo_eq`: how deep a form reaches does not matter
  if it is deep enough.
* `Doclet.form_faithful`: doclets are faithful, however deep they are nested.
* `Doclet.readText_toText`: a text of doclets that is not nested too deep is read, written
  and read again.
-/

namespace DocLinks

open Json

namespace TypeSpec

/-- No unknown field holds a floating-point number. -/
def FloatFree (t : TypeSpec) : Prop :=
  ∀ g ∈ t.extra, g.2.FloatFree

/-- What is in a type is read back. -/
structure Sound (b : Nat) (t : TypeSpec) : Prop where
  extra : Record.KeptFields b (record.fields.map (·.key)) t.extra

/-- The names are written even if there are none, and a list opens one level. -/
theorem restores {b : Nat} (hb : 0 < b) :
    RestoresAll b (Sound b) FloatFree record.fields (fun _ => {}) fun t =>
      { t with extra := [] } :=
  .cons (Form.text_plain.list.returns hb fun _ _ h => { h with }).always <|
  .nil fun _ => rfl

theorem faithful : record.form.Faithful FloatFree :=
  Record.Restorable.faithful
    { nodup_keys := by decide
      place := ⟨fun _ _ => rfl, fun _ _ _ => rfl, fun _ => rfl⟩
      sound_blank := fun _ => ⟨Record.keptFields_nil _ _⟩
      restores := restores
      kept := Sound.extra
      sound_setExtra := fun hmore h => { h with extra := hmore }
      floatFree_extra := fun h => h }

end TypeSpec

namespace Param

/-- No unknown field holds a floating-point number. -/
structure FloatFree (p : Param) : Prop where
  type : ∀ t ∈ p.type, t.FloatFree
  extra : ∀ g ∈ p.extra, g.2.FloatFree

/-- What is in a parameter is read back. -/
structure Sound (b : Nat) (p : Param) : Prop where
  type : TypeSpec.record.form.option.ReadsBack (fun o => ∀ t ∈ o, t.FloatFree) b p.type
  extra : Record.KeptFields b (record.fields.map (·.key)) p.extra

theorem restores (b : Nat) :
    RestoresAll b (Sound b) FloatFree record.fields (fun _ => {}) fun p =>
      { p with extra := [] } := by
  have htype : TypeSpec.record.form.option.Faithful fun o => ∀ t ∈ o, t.FloatFree :=
    TypeSpec.faithful.option nofun
  refine .cons (Form.text_plain.optional nofun (fun _ _ h => { h with }) (fun _ => rfl)
    fun _ => rfl) ?_
  refine .cons ((htype.returns (fun _ h => h.type) (fun _ h => h.type)
    fun _ _ ht h => { h with type := ht }).optional (fun _ => rfl) fun _ => rfl) ?_
  refine .cons (Form.text_plain.optional nofun (fun _ _ h => { h with }) (fun _ => rfl)
    fun _ => rfl) ?_
  refine .cons (.flag (fun _ _ h => { h with }) (fun _ => rfl) fun _ => rfl) ?_
  refine .cons (Form.flag_plain.optional nofun (fun _ _ h => { h with }) (fun _ => rfl)
    fun _ => rfl) ?_
  refine .cons (.flag (fun _ _ h => { h with }) (fun _ => rfl) fun _ => rfl) ?_
  exact .nil fun _ => rfl

theorem faithful : record.form.Faithful FloatFree :=
  Record.Restorable.faithful
    { nodup_keys := by decide
      place := ⟨fun _ _ => rfl, fun _ _ _ => rfl, fun _ => rfl⟩
      sound_blank := fun _ => ⟨fun _ => rfl, Record.keptFields_nil _ _⟩
      restores := fun _ => restores _
      kept := Sound.extra
      sound_setExtra := fun hmore h => { h with extra := hmore }
      floatFree_extra := FloatFree.extra }

end Param

namespace CodeMeta

/-- No unknown field holds a floating-point number. -/
def FloatFree (c : CodeMeta) : Prop :=
  ∀ g ∈ c.extra, g.2.FloatFree

/-- What is in a construct is read back. -/
structure Sound (b : Nat) (c : CodeMeta) : Prop where
  extra : Record.KeptFields b (record.fields.map (·.key)) c.extra

theorem restores (b : Nat) :
    RestoresAll b (Sound b) FloatFree record.fields (fun _ => {}) fun c =>
      { c with extra := [] } :=
  .cons (Form.text_plain.optional nofun (fun _ _ h => { h with })
    (fun _ => rfl) fun _ => rfl) <|
  .nil fun _ => rfl

theorem faithful : record.form.Faithful FloatFree :=
  Record.Restorable.faithful
    { nodup_keys := by decide
      place := ⟨fun _ _ => rfl, fun _ _ _ => rfl, fun _ => rfl⟩
      sound_blank := fun _ => ⟨Record.keptFields_nil _ _⟩
      restores := fun _ => restores _
      kept := Sound.extra
      sound_setExtra := fun hmore h => { h with extra := hmore }
      floatFree_extra := fun h => h }

end CodeMeta

namespace Meta

/-- No unknown field holds a floating-point number. -/
structure FloatFree (m : Meta) : Prop where
  code : ∀ c ∈ m.code, c.FloatFree
  extra : ∀ g ∈ m.extra, g.2.FloatFree

/-- What is in an origin is read back. -/
structure Sound (b : Nat) (m : Meta) : Prop where
  lineno : (Form.natBelow lineLimit).option.ReadsBack (fun _ => True) b m.lineno
  code : CodeMeta.record.form.option.ReadsBack (fun o => ∀ c ∈ o, c.FloatFree) b m.code
  extra : Record.KeptFields b (record.fields.map (·.key)) m.extra

theorem restores (b : Nat) :
    RestoresAll b (Sound b) FloatFree record.fields (fun _ => {}) fun m =>
      { m with extra := [] } := by
  have hline : (Form.natBelow lineLimit).option.Faithful fun _ => True :=
    ((Form.natBelow_faithful (by decide) fun _ => True).option nofun).imp
      fun _ _ _ _ => trivial
  have hcode : CodeMeta.record.form.option.Faithful fun o => ∀ c ∈ o, c.FloatFree :=
    CodeMeta.faithful.option nofun
  refine .cons (Form.text_plain.optional nofun (fun _ _ h => { h with }) (fun _ => rfl)
    fun _ => rfl) ?_
  refine .cons (Form.text_plain.optional nofun (fun _ _ h => { h with }) (fun _ => rfl)
    fun _ => rfl) ?_
  refine .cons ((hline.returns (fun _ _ => trivial) (fun _ h => h.lineno)
    fun _ _ hl h => { h with lineno := hl }).optional (fun _ => rfl) fun _ => rfl) ?_
  refine .cons ((hcode.returns (fun _ h => h.code) (fun _ h => h.code)
    fun _ _ hc h => { h with code := hc }).optional (fun _ => rfl) fun _ => rfl) ?_
  refine .cons (Form.text_plain.optional nofun (fun _ _ h => { h with }) (fun _ => rfl)
    fun _ => rfl) ?_
  exact .nil fun _ => rfl

theorem faithful : record.form.Faithful FloatFree :=
  Record.Restorable.faithful
    { nodup_keys := by decide
      place := ⟨fun _ _ => rfl, fun _ _ _ => rfl, fun _ => rfl⟩
      sound_blank := fun _ => ⟨fun _ => rfl, fun _ => rfl, Record.keptFields_nil _ _⟩
      restores := fun _ => restores _
      kept := Sound.extra
      sound_setExtra := fun hmore h => { h with extra := hmore }
      floatFree_extra := FloatFree.extra }

end Meta

section Shapes

/-- Texts have a value. -/
theorem values_ofItems_texts (b : Nat) (texts : List String) :
    Draft.values b (Draft.ofItems (texts.map .string)) = .ok (texts.map .string) := by
  induction texts with
  | nil => rfl
  | cons s texts ih =>
      rw [List.map_cons, Draft.ofItems]
      rw [Draft.values, ih]
      rfl

/-- Texts are written as a list, so one level is opened even for a single one. -/
theorem oneOrMany_plain : oneOrMany.Plain 1 where
  readsBack {b} hb texts := by
    obtain ⟨b, rfl⟩ := Nat.exists_eq_add_of_le' hb
    have hvalue : (Draft.ofJson (strings texts)).value (b + 1) = .ok (strings texts) := by
      rw [strings, Draft.ofJson]
      rw [Draft.value, values_ofItems_texts]
      rfl
    have htexts : Form.text.list.read (b + 1) (Draft.ofJson (strings texts)) = .ok texts :=
      Form.text_plain.list.readsBack hb texts
    rw [strings, Draft.ofJson] at hvalue htexts
    change oneOrMany.read (b + 1) (.array (Draft.ofItems (texts.map .string))) = .ok texts
    simp only [oneOrMany, hvalue, htexts]
    rfl
  floatFree texts := .array (by simp)

/-- An example is written as an object, even if it was read from its code. -/
theorem Example.form_plain : Example.form.Plain 1 where
  readsBack {b} hb e := by
    obtain ⟨b, rfl⟩ := Nat.exists_eq_add_of_le' hb
    rfl
  floatFree e := by
    have hfields : ∀ g ∈ [("caption", Json.string e.caption), ("code", Json.string e.code)],
        g.2.FloatFree := by
      simp
    exact .object hfields

end Shapes

namespace Doclet

/-- No unknown field of a doclet itself holds a floating-point number. -/
structure OwnFloatFree (d : Doclet) : Prop where
  type : ∀ t ∈ d.type, t.FloatFree
  params : ∀ p ∈ d.params, p.FloatFree
  returns : ∀ p ∈ d.returns, p.FloatFree
  yields : ∀ p ∈ d.yields, p.FloatFree
  properties : ∀ p ∈ d.properties, p.FloatFree
  exceptions : ∀ p ∈ d.exceptions, p.FloatFree
  origin : ∀ m ∈ d.origin, m.FloatFree
  extra : ∀ g ∈ d.extra, g.2.FloatFree

/-- No unknown field holds a floating-point number, nor does one of a doclet inside. -/
inductive FloatFree : Doclet → Prop
  | intro {d : Doclet} (own : d.OwnFloatFree) (modules : ∀ m ∈ d.modules, FloatFree m) :
      FloatFree d

theorem FloatFree.own {d : Doclet} (h : d.FloatFree) : d.OwnFloatFree := by
  cases h with
  | intro own _ => exact own

theorem FloatFree.modules {d : Doclet} (h : d.FloatFree) : ∀ m ∈ d.modules, m.FloatFree := by
  cases h with
  | intro _ modules => exact modules

/-- The names of the known fields. -/
def keys : List String :=
  (fields (formTo 0)).map (·.key)

theorem nodup_keys : keys.Nodup := by decide +kernel

/-- A list of parameters is read back. -/
def ParamsBack (b : Nat) (ps : List Param) : Prop :=
  Param.record.form.list.ReadsBack (fun ps => ∀ p ∈ ps, p.FloatFree) b ps

/-- What is in a doclet is read back, given the form of the doclets inside it. -/
structure Sound (inner : Form Doclet) (b : Nat) (d : Doclet) : Prop where
  kind : Kind.form.ReadsBack (fun _ => True) b d.kind
  scope : Scope.form.option.ReadsBack (fun _ => True) b d.scope
  type : TypeSpec.record.form.option.ReadsBack (fun o => ∀ t ∈ o, t.FloatFree) b d.type
  params : ParamsBack b d.params
  returns : ParamsBack b d.returns
  yields : ParamsBack b d.yields
  properties : ParamsBack b d.properties
  exceptions : ParamsBack b d.exceptions
  examples : Example.form.list.ReadsBack (fun _ => True) b d.examples
  origin : Meta.record.form.option.ReadsBack (fun o => ∀ m ∈ o, m.FloatFree) b d.origin
  modules : inner.list.ReadsBack (fun ms => ∀ m ∈ ms, m.FloatFree) b d.modules
  extra : Record.KeptFields b keys d.extra

section Places

variable {inner : Form Doclet} {b : Nat}

/-- A field that is set to its own value leaves the doclet as it is.  It is the same
statement for each field; doclets hold doclets, so it is not true by definition. -/
theorem set_same (d : Doclet) :
    (fun (d : Doclet) v => { d with extra := v }) d d.extra = d := by
  cases d
  rfl

theorem sound_blank (hb : 0 < b) : Sound inner b blank := by
  obtain ⟨b, rfl⟩ := Nat.exists_eq_add_of_le' hb
  exact ⟨fun _ => rfl, fun _ => rfl, fun _ => rfl, fun _ => rfl, fun _ => rfl, fun _ => rfl,
    fun _ => rfl, fun _ => rfl, fun _ => rfl, fun _ => rfl, fun _ => rfl,
    Record.keptFields_nil _ _⟩

variable {key : String} {start : Doclet → Doclet}

/-- A text that may be missing is read back; no other place depends on it. -/
theorem restores_text {get : Doclet → Option String} {set : Doclet → Option String → Doclet}
    (hset : ∀ d v, Sound inner b d → Sound inner b (set d v))
    (hsame : ∀ d, set d (get d) = d) (hblank : ∀ d, get (start d) = none) :
    Restores b (Sound inner b) FloatFree (.optional key .text get set) start
      fun d => set (start d) (get d) :=
  Form.text_plain.optional nofun hset hsame hblank

/-- A list of parameters is read back if all of them are. -/
theorem restores_params {get : Doclet → List Param} {set : Doclet → List Param → Doclet}
    (hfree : ∀ d, FloatFree d → ∀ p ∈ get d, p.FloatFree)
    (hget : ∀ d, Sound inner b d → ParamsBack b (get d))
    (hset : ∀ d ps, ParamsBack b ps → Sound inner b d → Sound inner b (set d ps))
    (hsame : ∀ d, set d (get d) = d) (hblank : ∀ d, get (start d) = []) :
    Restores b (Sound inner b) FloatFree (.list key Param.record.form get set) start
      fun d => set (start d) (get d) :=
  (Param.faithful.list.returns hfree hget hset).list hsame hblank

/-- The fields in the order in which they are written.  For each one it is said why its value
is read back, that the other places stay as they were, and that the place is blank until
then. -/
theorem restores (hinner : inner.Faithful FloatFree) (hb : 0 < b) :
    RestoresAll b (Sound inner b) FloatFree (fields inner) (fun _ => blank)
      fun d => { d with extra := [] } := by
  have hkind : Kind.form.Faithful fun _ => True :=
    Form.text_plain.map (fun s => by rw [Kind.name_ofName]) _
  have hscopeName : Scope.form.Faithful fun _ => True :=
    Form.text_plain.map (fun s => by rw [Scope.name_ofName]) _
  have hscope : Scope.form.option.Faithful fun _ => True :=
    (hscopeName.option nofun).imp fun _ _ _ _ => trivial
  have htype : TypeSpec.record.form.option.Faithful fun o => ∀ t ∈ o, t.FloatFree :=
    TypeSpec.faithful.option nofun
  have hexamples : Example.form.list.Faithful fun _ => True :=
    (Example.form_plain.faithful fun _ => True).list.imp fun _ _ _ _ => trivial
  have horigin : Meta.record.form.option.Faithful fun o => ∀ m ∈ o, m.FloatFree :=
    Meta.faithful.option nofun
  -- From the long name to the summary: texts and flags, but for the kind and the scope.
  refine .cons (Form.text_plain.returns (Nat.zero_le b) fun _ _ h => { h with }).always ?_
  refine .cons (restores_text (fun _ _ h => { h with }) set_same fun _ => rfl) ?_
  refine .cons (hkind.returns (fun _ _ => trivial) (fun _ h => h.kind)
    fun _ _ hk h => { h with kind := hk }).mandatory ?_
  refine .cons (restores_text (fun _ _ h => { h with }) set_same fun _ => rfl) ?_
  refine .cons ((hscope.returns (fun _ _ => trivial) (fun _ h => h.scope)
    fun _ _ hs h => { h with scope := hs }).optional set_same fun _ => rfl) ?_
  refine .cons (restores_text (fun _ _ h => { h with }) set_same fun _ => rfl) ?_
  refine .cons (restores_text (fun _ _ h => { h with }) set_same fun _ => rfl) ?_
  refine .cons (.flag (fun _ _ h => { h with }) set_same fun _ => rfl) ?_
  refine .cons (.flag (fun _ _ h => { h with }) set_same fun _ => rfl) ?_
  refine .cons (.flag (fun _ _ h => { h with }) set_same fun _ => rfl) ?_
  refine .cons (.flag (fun _ _ h => { h with }) set_same fun _ => rfl) ?_
  refine .cons (Form.flag_plain.optional nofun
    (fun _ _ h => { h with }) set_same fun _ => rfl) ?_
  refine .cons (.flag (fun _ _ h => { h with }) set_same fun _ => rfl) ?_
  refine .cons (.flag (fun _ _ h => { h with }) set_same fun _ => rfl) ?_
  refine .cons (restores_text (fun _ _ h => { h with }) set_same fun _ => rfl) ?_
  refine .cons (restores_text (fun _ _ h => { h with }) set_same fun _ => rfl) ?_
  refine .cons (restores_text (fun _ _ h => { h with }) set_same fun _ => rfl) ?_
  -- From the authors to the origin: lists and records.
  refine .cons ((oneOrMany_plain.returns hb fun _ _ h =>
    { h with }).list set_same fun _ => rfl) ?_
  refine .cons ((oneOrMany_plain.returns hb fun _ _ h =>
    { h with }).list set_same fun _ => rfl) ?_
  refine .cons ((htype.returns (fun _ h => h.own.type) (fun _ h => h.type)
    fun _ _ ht h => { h with type := ht }).optional set_same fun _ => rfl) ?_
  refine .cons (restores_params (fun _ h => h.own.params) (fun _ h => h.params)
    (fun _ _ hp h => { h with params := hp }) set_same fun _ => rfl) ?_
  refine .cons (restores_params (fun _ h => h.own.returns) (fun _ h => h.returns)
    (fun _ _ hp h => { h with returns := hp }) set_same fun _ => rfl) ?_
  refine .cons (restores_params (fun _ h => h.own.yields) (fun _ h => h.yields)
    (fun _ _ hp h => { h with yields := hp }) set_same fun _ => rfl) ?_
  refine .cons (restores_params (fun _ h => h.own.properties) (fun _ h => h.properties)
    (fun _ _ hp h => { h with properties := hp }) set_same fun _ => rfl) ?_
  refine .cons (restores_params (fun _ h => h.own.exceptions) (fun _ h => h.exceptions)
    (fun _ _ hp h => { h with exceptions := hp }) set_same fun _ => rfl) ?_
  refine .cons ((Form.text_plain.list.returns hb fun _ _ h => { h with }).list
    set_same fun _ => rfl) ?_
  refine .cons ((hexamples.returns (fun _ _ => trivial) (fun _ h => h.examples)
    fun _ _ he h => { h with examples := he }).list set_same fun _ => rfl) ?_
  refine .cons ((horigin.returns (fun _ h => h.own.origin) (fun _ h => h.origin)
    fun _ _ ho h => { h with origin := ho }).optional set_same fun _ => rfl) ?_
  -- What publishing adds, and the doclets inside.
  refine .cons (restores_text (fun _ _ h => { h with }) set_same fun _ => rfl) ?_
  refine .cons (restores_text (fun _ _ h => { h with }) set_same fun _ => rfl) ?_
  refine .cons (restores_text (fun _ _ h => { h with }) set_same fun _ => rfl) ?_
  refine .cons ((Form.text_plain.list.returns hb fun _ _ h => { h with }).list
    set_same fun _ => rfl) ?_
  refine .cons ((hinner.list.returns (fun _ h => h.modules) (fun _ h => h.modules)
    fun _ _ hm h => { h with modules := hm }).list set_same fun _ => rfl) ?_
  exact .nil fun _ => rfl

end Places

theorem record_faithful {inner : Form Doclet} (hinner : inner.Faithful FloatFree) :
    (record inner).form.Faithful FloatFree :=
  Record.Restorable.faithful
    { nodup_keys := nodup_keys
      place := ⟨fun _ _ => rfl, fun _ _ _ => rfl, set_same⟩
      sound_blank := sound_blank
      restores := restores hinner
      kept := Sound.extra
      sound_setExtra := fun hmore h => { h with extra := hmore }
      floatFree_extra := fun h => h.own.extra }

theorem formTo_faithful (n : Nat) : (formTo n).Faithful FloatFree := by
  induction n with
  | zero => exact ⟨fun hread => by simp [formTo] at hread, fun _ => .null⟩
  | succ n ih => exact record_faithful ih

section Depths

/-- The field that holds doclets. -/
def modulesField (inner : Form Doclet) : RecordField Doclet :=
  .list "modules" inner (·.modules) fun d v => { d with modules := v }

/-- The form of the doclets inside a doclet matters for one field only. -/
theorem map_fields_congr {β : Type} {f g : Form Doclet} {view : RecordField Doclet → β}
    (h : view (modulesField f) = view (modulesField g)) :
    (fields f).map view = (fields g).map view := by
  rw [modulesField, modulesField] at h
  simp only [fields, List.map_cons, List.map_nil, h]

theorem read_list_congr {α : Type} {f g : Form α} {a : Nat}
    (h : ∀ n < a, f.read n = g.read n) :
    f.list.read a = g.list.read a := by
  funext d
  cases d with
  | array items =>
      cases a with
      | zero => rfl
      | succ a => simp only [Form.list, h a (Nat.lt_succ_self a)]
  | _ => rfl

/-- Doclets that no allowance reaches are not read, however deep the form goes. -/
theorem read_formTo_eq {n m a : Nat} (hn : a < n) (hm : a < m) :
    (formTo n).read a = (formTo m).read a := by
  induction n generalizing m a with
  | zero => simp at hn
  | succ n ih =>
      cases m with
      | zero => simp at hm
      | succ m =>
          funext d
          refine Record.read_congr (s := record (formTo n)) (t := record (formTo m))
            (fun k hk => map_fields_congr ?_) rfl rfl rfl rfl d
          have hlist : (formTo n).list.read k = (formTo m).list.read k :=
            read_list_congr fun l hl => ih (by omega) (by omega)
          simp only [Record.reading, modulesField, RecordField.list, RecordField.of, hlist]

theorem depth_pos (d : Doclet) : 0 < d.depth := by
  rw [depth]
  exact Nat.lt_of_lt_of_le Nat.one_pos (Nat.le_add_right 1 _)

theorem depth_lt_depth {d m : Doclet} (h : m ∈ d.modules) : m.depth < d.depth := by
  have hmem : m.depth ∈ d.modules.attach.map fun m => m.1.depth :=
    List.mem_map.2 ⟨⟨m, h⟩, List.mem_attach _ _, rfl⟩
  rw [depth.eq_1 d]
  exact Nat.lt_one_add_iff.2 (List.le_max_of_le' 0 hmem le_rfl)

/-- A doclet is written the same by every form that reaches its deepest doclet. -/
theorem write_formTo_eq {n m : Nat} {d : Doclet} (hn : d.depth ≤ n) (hm : d.depth ≤ m) :
    (formTo n).write d = (formTo m).write d := by
  induction n generalizing m d with
  | zero => exact absurd (depth_pos d) (Nat.not_lt.2 hn)
  | succ n ih =>
      cases m with
      | zero => exact absurd (depth_pos d) (Nat.not_lt.2 hm)
      | succ m =>
          have hmodules : d.modules.map (formTo n).write =
              d.modules.map (formTo m).write := by
            refine List.map_congr_left fun k hk => ?_
            have hdepth := depth_lt_depth hk
            exact ih (by omega) (by omega)
          have hfields : writtenFields (fields (formTo n)) d =
              writtenFields (fields (formTo m)) d := by
            rw [writtenFields_eq_map, writtenFields_eq_map]
            refine congrArg _ (map_fields_congr ?_)
            simp only [modulesField, RecordField.list, RecordField.of, Form.list, hmodules]
          change Json.object (writtenFields (fields (formTo n)) d ++ d.extra) =
            .object (writtenFields (fields (formTo m)) d ++ d.extra)
          rw [hfields]

/-- Doclets are read back.  One depth that is large enough for the three forms decides. -/
theorem form_faithful : form.Faithful FloatFree where
  readsBack {a b d x} hread hb hx := by
    have hdeep : (formTo (a + b + x.depth + 1)).read a d = .ok x := by
      rw [read_formTo_eq (m := a + 1) (by omega) (Nat.lt_succ_self a)]
      exact hread
    have hback := (formTo_faithful _).readsBack hdeep hb hx
    rw [read_formTo_eq (m := b + 1) (by omega) (Nat.lt_succ_self b)] at hback
    rw [write_formTo_eq (m := x.depth) (by omega) le_rfl] at hback
    exact hback
  floatFree hx := (formTo_faithful _).floatFree hx

end Depths

/-- The text of doclets. -/
def toText (l : Layout) (ds : List Doclet) : String :=
  write l (form.list.write ds)

/-- Doclets that were read from a text are read back from the text that is written for them,
whatever its layout, and writing them again gives that text.  One level of nesting is left
free, since a text may have been written as a list of texts; no unknown field may hold a
floating-point number. -/
theorem readText_toText {text : String} {ds : List Doclet}
    (hread : form.list.readText text = .ok ds)
    (hnesting : (Draft.ofText text.toList).root.nesting ≤ 126)
    (hfree : ∀ d ∈ ds, d.FloatFree)
    (l : Layout) : form.list.readText (toText l ds) = .ok ds ∧
      (form.list.readText (toText l ds)).map (toText l) = .ok (toText l ds) := by
  have hback : form.list.readText (toText l ds) = .ok ds :=
    form_faithful.list.readText_write hread (Nat.lt_succ_of_le hnesting) hfree l
  exact ⟨hback, by rw [hback, Except.map]⟩

/-- A class with unknown fields of its own, in its type and in its origin. -/
def taggedClass : Doclet :=
  { longname := "A"
    kind := .classDecl
    see := ["B"]
    type := some
      { names := ["string"]
        extra := [("expression", .object [("type", .string "NameExpression")])] }
    origin := some { lineno := some 12, extra := [("range", .array [.nat 0, .nat 8])] }
    extra := [("inherited", .bool true)] }

/-- This class as someone else wrote it: in another order, and with a reference that is no
list. -/
def taggedClassJson : Json :=
  .array [.object
    [("kind", .string "class"),
     ("inherited", .bool true),
     ("see", .string "B"),
     ("type", .object
       [("expression", .object [("type", .string "NameExpression")]),
         ("names", strings ["string"])]),
     ("meta", .object [("lineno", .nat 12), ("range", .array [.nat 0, .nat 8])]),
     ("longname", .string "A")]]

theorem readText_toText_of_taggedClass :
    form.list.readText (write .indented taggedClassJson) = .ok [taggedClass] ∧
      (Draft.ofText (write .indented taggedClassJson).toList).root.nesting ≤ 126 ∧
      (∀ d ∈ [taggedClass], d.FloatFree) ∧
      form.list.readText (toText .compact [taggedClass]) = .ok [taggedClass] := by
  have htree : Draft.ofText (write .indented taggedClassJson).toList =
      ⟨Draft.ofJson taggedClassJson, false⟩ := by
    have hfree : taggedClassJson.FloatFree := by simp [taggedClassJson, strings, Json.nat]
    rw [Json.write, String.toList_ofList, ofText_writeAt _ hfree]
  have hread : form.list.readText (write .indented taggedClassJson) = .ok [taggedClass] := by
    rw [Form.readText, htree]
    rfl
  have hnesting :
      (Draft.ofText (write .indented taggedClassJson).toList).root.nesting ≤ 126 := by
    rw [htree]
    decide
  have hown : taggedClass.OwnFloatFree := by
    constructor <;> simp [taggedClass, TypeSpec.FloatFree, Json.nat]
    case origin => exact ⟨by simp, by simp⟩
  have hfree : ∀ d ∈ [taggedClass], d.FloatFree :=
    List.forall_mem_singleton.2 (.intro hown (by simp [taggedClass]))
  exact ⟨hread, hnesting, hfree, (readText_toText hread hnesting hfree .compact).1⟩

end Doclet

end DocLinks
