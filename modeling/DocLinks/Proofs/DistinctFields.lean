import DocLinks.Toml.Table
import Mathlib.Data.List.Nodup

/-!
# The fields of a table have different names

A table that TOML describes cannot have two fields of one name, nor can any table inside of
it.  Whoever looks for a field in such a table can find one field at most.

**Along the text.**  The terms that have been read so far stand for values that have the
property, and no token takes it from them (`Reading.Distinct.step`).

**Along the statements.**  A field is added only where there is none of its name, and is
replaced where it stands; so no statement takes the property from the table that is being
built (`Construction.distinct_add`).

**Results.**
* `Term.Distinct.value`: a term stands for a value in which all tables have fields of
  different names.
* `distinct_of_read?`: so do the fields of a whole text.
-/

namespace DocLinks
namespace Toml

section Values

/-- All tables in a value have fields of different names. -/
inductive Value.Distinct : Value → Prop
  | text (s : String) : Distinct (.text s)
  | bool (b : Bool) : Distinct (.bool b)
  | integer (n : Int) : Distinct (.integer n)
  | float (literal : String) : Distinct (.float literal)
  | moment (literal : String) : Distinct (.moment literal)
  | array {items : List Value} : (∀ v ∈ items, Distinct v) → Distinct (.array items)
  | table {fields : List (String × Value)} :
      (fields.map Prod.fst).Nodup → (∀ f ∈ fields, Distinct f.2) →
      Distinct (.table fields)

/-- All tables in a part of a table under construction have fields of different names. -/
inductive Node.Distinct : Node → Prop
  | value {v : Value} : v.Distinct → Distinct (.value v)
  | table {origin : Origin} {fields : Fields} : (fields.map Prod.fst).Nodup →
      (∀ f ∈ fields, Distinct f.2) → Distinct (.table origin fields)
  | tables {before : List Fields} {last : Fields} :
      (∀ fields ∈ last :: before, (fields.map Prod.fst).Nodup) →
      (∀ fields ∈ last :: before, ∀ f ∈ fields, Distinct f.2) →
      Distinct (.tables before last)

/-- The fields of a table under construction have different names, and so have those of all
tables in it. -/
structure Fields.Distinct (fs : Fields) : Prop where
  names : (fs.map Prod.fst).Nodup
  nodes : ∀ f ∈ fs, f.2.Distinct

/-- What is written as a value stands for values in which all tables have fields of different
names. -/
inductive Term.Distinct : Term → Prop
  | leaf {v : Value} : v.Distinct → Distinct (.leaf v)
  | array {items : List Term} : (∀ t ∈ items, Distinct t) → Distinct (.array items)
  | braces {fields : List (Path × Term)} : (∀ f ∈ fields, Distinct f.2) →
      Distinct (.braces fields)

end Values

section Fields

variable {fs fs' sub : Fields} {key : String} {n : Node} {v : Value} {path : Path}

theorem Fields.Distinct.nil : Fields.Distinct [] :=
  ⟨List.nodup_nil, nofun⟩

theorem Fields.Distinct.toTable (h : fs.Distinct) (origin : Origin) :
    (Node.table origin fs).Distinct :=
  .table h.names h.nodes

theorem Fields.Distinct.of_lookup (h : fs.Distinct)
    (hn : fs.lookup key = some n) : n.Distinct := by
  obtain ⟨front, back, rfl, -⟩ := List.lookup_eq_some_iff.1 hn
  exact h.nodes (key, n) (by simp)

theorem Fields.Distinct.of_table {origin : Origin}
    (h : (Node.table origin fs).Distinct) : fs.Distinct := by
  cases h with
  | table hnames hnodes => exact ⟨hnames, hnodes⟩

theorem Fields.Distinct.of_tables {before : List Fields}
    (h : (Node.tables before fs).Distinct) :
    fs.Distinct := by
  cases h with
  | tables hnames hnodes =>
      exact ⟨hnames fs List.mem_cons_self, hnodes fs List.mem_cons_self⟩

/-- The last one of a list of tables may be replaced. -/
theorem Fields.Distinct.toTables {before : List Fields}
    (h : (Node.tables before fs).Distinct)
    (hlast : fs'.Distinct) : (Node.tables before fs').Distinct := by
  cases h with
  | tables hnames hnodes =>
      refine .tables (fun fields hmem => ?_) fun fields hmem => ?_
      · rcases List.mem_cons.1 hmem with rfl | hmem
        · exact hlast.names
        · exact hnames fields (List.mem_cons_of_mem _ hmem)
      · rcases List.mem_cons.1 hmem with rfl | hmem
        · exact hlast.nodes
        · exact hnodes fields (List.mem_cons_of_mem _ hmem)

theorem Fields.Distinct.concat (h : fs.Distinct) (hnew : fs.lookup key = none)
    (hn : n.Distinct) :
    Fields.Distinct (fs ++ [(key, n)]) := by
  refine ⟨?_, fun f hf => ?_⟩
  · rw [List.map_append]
    refine h.names.append (List.nodup_singleton _) (List.disjoint_singleton.2 fun hmem => ?_)
    obtain ⟨f, hf, hkey⟩ := List.mem_map.1 hmem
    have hne := List.lookup_eq_none_iff.1 hnew f hf
    simp [hkey] at hne
  · rcases List.mem_append.1 hf with hf | hf
    · exact h.nodes f hf
    · obtain rfl := List.mem_singleton.1 hf
      exact hn

theorem Fields.map_fst_replace (key : String) (n : Node) (fs : Fields) :
    (Fields.replace key n fs).map Prod.fst = fs.map Prod.fst := by
  rw [Fields.replace, List.map_map]
  refine List.map_congr_left fun f _ => ?_
  simp only [Function.comp]
  split <;> rfl

theorem Fields.Distinct.replace (h : fs.Distinct) (hn : n.Distinct) :
    Fields.Distinct (Fields.replace key n fs) := by
  refine ⟨by rw [Fields.map_fst_replace]; exact h.names, fun f hf => ?_⟩
  obtain ⟨⟨k, old⟩, hmem, rfl⟩ := List.mem_map.1 hf
  dsimp only
  split
  · exact hn
  · exact h.nodes _ hmem

theorem Fields.Distinct.put (h : fs.Distinct) (hn : n.Distinct) :
    Fields.Distinct (Fields.put key n fs) := by
  rw [Fields.put]
  split
  · exact h.replace hn
  · rename_i hnew
    exact h.concat (Option.not_isSome_iff_eq_none.1 hnew) hn

theorem Fields.Distinct.assign (hv : v.Distinct) (h : fs.Distinct)
    (hassign : Fields.assign v path fs = some fs') :
    fs'.Distinct := by
  fun_induction Fields.assign v path fs generalizing fs' with
  | case1 => cases hassign
  | case2 key fs hsome => cases hassign
  | case3 key fs hnew =>
      obtain rfl := Option.some.inj hassign
      exact h.concat (Option.not_isSome_iff_eq_none.1 hnew) (.value hv)
  | case4 fs key next path hnone ih =>
      obtain ⟨sub, hsub, rfl⟩ := Option.map_eq_some_iff.1 hassign
      exact h.concat hnone ((ih .nil hsub).toTable _)
  | case5 => cases hassign
  | case6 fs key next path origin sub hlookup hdeclared ih =>
      obtain ⟨sub', hsub, rfl⟩ := Option.map_eq_some_iff.1 hassign
      exact h.replace ((ih (.of_table (h.of_lookup hlookup)) hsub).toTable _)
  | case7 => cases hassign
  | case8 fs key next path before last hlookup hpath ih =>
      obtain ⟨last', hlast, rfl⟩ := Option.map_eq_some_iff.1 hassign
      have htables := h.of_lookup hlookup
      exact h.replace (Fields.Distinct.toTables htables (ih (.of_tables htables) hlast))
  | case9 => cases hassign

/-- A header makes a table of what is there, or of nothing. -/
def Declares (d : Fields.Declaration) : Prop :=
  ∀ old n, (∀ m ∈ old, Node.Distinct m) → d old = some n → n.Distinct

theorem declares_table : Declares Fields.declareTable := by
  intro old n hold h
  unfold Fields.declareTable at h
  split at h
  · obtain rfl := Option.some.inj h
    exact Fields.Distinct.nil.toTable _
  · rename_i fs
    obtain rfl := Option.some.inj h
    exact (Fields.Distinct.of_table (hold _ rfl)).toTable _
  · cases h

theorem declares_next : Declares Fields.declareNext := by
  intro old n hold h
  unfold Fields.declareNext at h
  split at h
  · obtain rfl := Option.some.inj h
    refine .tables (fun fields hmem => ?_) fun fields hmem => ?_
    · obtain rfl := List.mem_singleton.1 hmem
      exact List.nodup_nil
    · obtain rfl := List.mem_singleton.1 hmem
      exact nofun
  · rename_i before last
    obtain rfl := Option.some.inj h
    cases hold _ rfl with
    | tables hnames hnodes =>
        refine .tables (fun fields hmem => ?_) fun fields hmem => ?_
        · rcases List.mem_cons.1 hmem with rfl | hmem
          · exact List.nodup_nil
          · exact hnames fields hmem
        · rcases List.mem_cons.1 hmem with rfl | hmem
          · exact nofun
          · exact hnodes fields hmem
  · cases h

theorem Fields.Distinct.declare {d : Fields.Declaration} (hd : Declares d) (h : fs.Distinct)
    (hdeclare : Fields.declare d path fs = some fs') : fs'.Distinct := by
  fun_induction Fields.declare d path fs generalizing fs' with
  | case1 => cases hdeclare
  | case2 key fs =>
      obtain ⟨n, hn, rfl⟩ := Option.map_eq_some_iff.1 hdeclare
      exact h.put (hd _ n (fun m hm => h.of_lookup hm) hn)
  | case3 fs key next path hnone ih =>
      obtain ⟨sub, hsub, rfl⟩ := Option.map_eq_some_iff.1 hdeclare
      exact h.put ((ih .nil hsub).toTable _)
  | case4 fs key next path origin sub hlookup ih =>
      obtain ⟨sub', hsub, rfl⟩ := Option.map_eq_some_iff.1 hdeclare
      exact h.put ((ih (.of_table (h.of_lookup hlookup)) hsub).toTable _)
  | case5 fs key next path before last hlookup ih =>
      obtain ⟨last', hlast, rfl⟩ := Option.map_eq_some_iff.1 hdeclare
      have htables := h.of_lookup hlookup
      exact h.put (Fields.Distinct.toTables htables (ih (.of_tables htables) hlast))
  | case6 => cases hdeclare

theorem Fields.Distinct.change {f : Fields → Option Fields}
    (hf : ∀ fs fs' : Fields, fs.Distinct → f fs = some fs' → fs'.Distinct) (h : fs.Distinct)
    (hchange : Fields.change f path fs = some fs') : fs'.Distinct := by
  fun_induction Fields.change f path fs generalizing fs' with
  | case1 fs => exact hf fs fs' h hchange
  | case2 fs key path origin sub hlookup ih =>
      obtain ⟨sub', hsub, rfl⟩ := Option.map_eq_some_iff.1 hchange
      exact h.replace ((ih (.of_table (h.of_lookup hlookup)) hsub).toTable _)
  | case3 fs key path before last hlookup ih =>
      obtain ⟨last', hlast, rfl⟩ := Option.map_eq_some_iff.1 hchange
      have htables := h.of_lookup hlookup
      exact h.replace (Fields.Distinct.toTables htables (ih (.of_tables htables) hlast))
  | case4 => cases hchange

theorem toValues_eq_map (fs : Fields) :
    toValues fs = fs.map fun f => (f.1, f.2.toValue) := by
  induction fs with
  | nil => rw [toValues, List.map_nil]
  | cons f fs ih =>
      obtain ⟨key, n⟩ := f
      rw [toValues, ih, List.map_cons]

theorem tableValues_eq_map (tables : List Fields) :
    tableValues tables = tables.map fun fs => .table (toValues fs) := by
  induction tables with
  | nil => rw [tableValues, List.map_nil]
  | cons fs tables ih => rw [tableValues, ih, List.map_cons]

theorem distinct_toTable (hnames : (fs.map Prod.fst).Nodup)
    (hvalues : ∀ f ∈ fs, f.2.toValue.Distinct) :
    (Value.table (toValues fs)).Distinct := by
  rw [toValues_eq_map]
  refine .table ?_ fun f hf => ?_
  · rw [List.map_map]
    exact hnames
  · obtain ⟨g, hg, rfl⟩ := List.mem_map.1 hf
    exact hvalues g hg

theorem Node.Distinct.toValue (h : n.Distinct) : n.toValue.Distinct := by
  induction h with
  | value hv =>
      rw [Node.toValue]
      exact hv
  | table hnames _ ih =>
      rw [Node.toValue]
      exact distinct_toTable hnames ih
  | @tables before last hnames _ ih =>
      have htables : ∀ fields ∈ last :: before, (Value.table (toValues fields)).Distinct :=
        fun fields hmem => distinct_toTable (hnames fields hmem) (ih fields hmem)
      rw [Node.toValue, tableValues_eq_map]
      refine .array fun v hv => ?_
      rcases List.mem_append.1 hv with hv | hv
      · obtain ⟨fields, hmem, rfl⟩ := List.mem_map.1 (List.mem_reverse.1 hv)
        exact htables fields (List.mem_cons_of_mem _ hmem)
      · obtain rfl := List.mem_singleton.1 hv
        exact htables last List.mem_cons_self

theorem Fields.Distinct.toValue (h : fs.Distinct) : (Value.table (toValues fs)).Distinct :=
  distinct_toTable h.names fun f hf => (h.nodes f hf).toValue

end Fields

section Terms

variable {t : Term} {v : Value} {fs fs' : Fields}

theorem distinct_of_termValues? {items : List Term} {vs : List Value}
    (hvs : termValues? items = some vs)
    (h : ∀ t ∈ items, ∀ v, t.value? = some v → v.Distinct) : ∀ v ∈ vs, v.Distinct := by
  induction items generalizing vs with
  | nil =>
      rw [termValues?] at hvs
      obtain rfl := Option.some.inj hvs
      nofun
  | cons t items ih =>
      rw [termValues?] at hvs
      obtain ⟨v, hv, hvs⟩ := Option.bind_eq_some_iff.1 hvs
      obtain ⟨vs, hrest, hvs⟩ := Option.bind_eq_some_iff.1 hvs
      obtain rfl := Option.some.inj hvs
      intro w hw
      rcases List.mem_cons.1 hw with rfl | hw
      · exact h t List.mem_cons_self w hv
      · exact ih hrest (fun t ht => h t (List.mem_cons_of_mem _ ht)) w hw

theorem distinct_of_assignTerms? {fields : List (Path × Term)}
    (hfs : assignTerms? fields fs = some fs')
    (h : ∀ f ∈ fields, ∀ v, f.2.value? = some v → v.Distinct) (hstart : fs.Distinct) :
    fs'.Distinct := by
  induction fields generalizing fs with
  | nil =>
      rw [assignTerms?] at hfs
      obtain rfl := Option.some.inj hfs
      exact hstart
  | cons f fields ih =>
      obtain ⟨path, t⟩ := f
      rw [assignTerms?] at hfs
      obtain ⟨v, hv, hfs⟩ := Option.bind_eq_some_iff.1 hfs
      obtain ⟨next, hnext, hfs⟩ := Option.bind_eq_some_iff.1 hfs
      exact ih hfs (fun f hf => h f (List.mem_cons_of_mem _ hf))
        (hstart.assign (h _ List.mem_cons_self v hv) hnext)

theorem Term.Distinct.value (h : t.Distinct) (hv : t.value? = some v) : v.Distinct := by
  induction h generalizing v with
  | leaf hleaf =>
      rw [Term.value?] at hv
      exact Option.some.inj hv ▸ hleaf
  | array _ ih =>
      rw [Term.value?] at hv
      obtain ⟨vs, hvs, rfl⟩ := Option.map_eq_some_iff.1 hv
      exact .array (distinct_of_termValues? hvs fun t ht v => ih t ht)
  | braces _ ih =>
      rw [Term.value?] at hv
      obtain ⟨fs, hfs, rfl⟩ := Option.map_eq_some_iff.1 hv
      exact (distinct_of_assignTerms? hfs (fun f hf v => ih f hf) .nil).toValue

end Terms

section Statements

/-- The value of an assignment has distinct fields. -/
def Statement.Distinct : Statement → Prop
  | .assign _ t => t.Distinct
  | _ => True

/-- All that is open has values with distinct fields so far. -/
def Frame.Distinct : Frame → Prop
  | .assignment _ => True
  | .array items => ∀ t ∈ items, t.Distinct
  | .braces fields => ∀ f ∈ fields, f.2.Distinct
  | .field fields _ => ∀ f ∈ fields, f.2.Distinct

namespace Reading

/-- All values that have been read so far have distinct fields. -/
structure Distinct (r : Reading) : Prop where
  statements : ∀ s ∈ r.statements, s.Distinct
  stack : ∀ f ∈ r.stack, f.Distinct

variable {r r' : Reading} {t : Term} {token : Token} {f : Frame}
  {stack : List Frame} {s : List Char}

theorem Distinct.expect (h : r.Distinct) (mode : Mode) : (r.expect mode).Distinct :=
  ⟨h.statements, h.stack⟩

theorem Distinct.of_stack (h : r.Distinct) (hstack : r.stack = f :: stack) :
    f.Distinct ∧ ∀ g ∈ stack, g.Distinct :=
  ⟨h.stack f (hstack ▸ List.mem_cons_self),
    fun g hg => h.stack g (hstack ▸ List.mem_cons_of_mem _ hg)⟩

theorem Distinct.place (h : r.Distinct) (ht : t.Distinct)
    (hplace : r.place t = some r') : r'.Distinct := by
  unfold Reading.place at hplace
  split at hplace
  · rename_i path stack hstack
    obtain rfl := Option.some.inj hplace
    exact ⟨List.forall_mem_cons.2 ⟨ht, h.statements⟩, (h.of_stack hstack).2⟩
  · rename_i items stack hstack
    obtain rfl := Option.some.inj hplace
    obtain ⟨hitems, hrest⟩ := h.of_stack hstack
    exact ⟨h.statements, List.forall_mem_cons.2 ⟨List.forall_mem_cons.2 ⟨ht, hitems⟩, hrest⟩⟩
  · rename_i fields path stack hstack
    obtain rfl := Option.some.inj hplace
    obtain ⟨hfields, hrest⟩ := h.of_stack hstack
    exact ⟨h.statements, List.forall_mem_cons.2
      ⟨List.forall_mem_cons.2 ⟨ht, hfields⟩, hrest⟩⟩
  · cases hplace

theorem Distinct.openFrame {mode : Mode} (h : r.Distinct) (hf : f.Distinct)
    (hopen : r.openFrame f mode = some r') : r'.Distinct := by
  unfold Reading.openFrame at hopen
  split at hopen
  · obtain rfl := Option.some.inj hopen
    exact ⟨h.statements, List.forall_mem_cons.2 ⟨hf, h.stack⟩⟩
  · cases hopen

theorem Distinct.closeArray (h : r.Distinct)
    (hclose : r.closeArray = some r') : r'.Distinct := by
  unfold Reading.closeArray at hclose
  split at hclose
  · rename_i items stack hstack
    obtain ⟨hitems, hrest⟩ := h.of_stack hstack
    have hinner : Distinct ⟨r.statements, stack, r.mode⟩ := ⟨h.statements, hrest⟩
    exact hinner.place (.array fun t ht => hitems t (List.mem_reverse.1 ht)) hclose
  · cases hclose

theorem Distinct.closeBraces (h : r.Distinct)
    (hclose : r.closeBraces = some r') : r'.Distinct := by
  unfold Reading.closeBraces at hclose
  split at hclose
  · rename_i fields stack hstack
    obtain ⟨hfields, hrest⟩ := h.of_stack hstack
    have hinner : Distinct ⟨r.statements, stack, r.mode⟩ := ⟨h.statements, hrest⟩
    exact hinner.place (.braces fun f hf => hfields f (List.mem_reverse.1 hf)) hclose
  · cases hclose

theorem Distinct.readKeyPart {use : KeyUse} {parts : Path} (h : r.Distinct)
    (hread : r.readKeyPart use parts token = some r') : r'.Distinct := by
  unfold Reading.readKeyPart at hread
  split at hread
  · obtain ⟨part, -, rfl⟩ := Option.map_eq_some_iff.1 hread
    exact h.expect _
  · cases hread

theorem Distinct.endKey {use : KeyUse} {path : Path} (h : r.Distinct)
    (hread : r.endKey use path token = some r') : r'.Distinct := by
  unfold Reading.endKey at hread
  split at hread
  · split at hread
    · rename_i fields stack hstack
      obtain rfl := Option.some.inj hread
      obtain ⟨hfields, hrest⟩ := h.of_stack hstack
      exact ⟨h.statements, List.forall_mem_cons.2 ⟨hfields, hrest⟩⟩
    · obtain rfl := Option.some.inj hread
      exact ⟨h.statements, List.forall_mem_singleton.2 trivial⟩
    · cases hread
  · obtain rfl := Option.some.inj hread
    exact ⟨List.forall_mem_cons.2 ⟨trivial, h.statements⟩, h.stack⟩
  · obtain rfl := Option.some.inj hread
    exact h.expect _
  · cases hread

theorem distinct_of_scalar? {v : Value} (h : scalar? s = some v) : v.Distinct := by
  unfold scalar? at h
  split at h
  · exact Option.some.inj h ▸ .bool true
  · split at h
    · exact Option.some.inj h ▸ .bool false
    · split at h
      · split at h
        · exact Option.some.inj h ▸ .integer _
        · cases h
      · split at h
        · exact Option.some.inj h ▸ .float _
        · split at h
          · exact Option.some.inj h ▸ .moment _
          · cases h

theorem Distinct.placeScalar (h : r.Distinct)
    (hplace : r.placeScalar s = some r') : r'.Distinct := by
  obtain ⟨v, hv, hplace⟩ := Option.bind_eq_some_iff.1 hplace
  exact h.place (.leaf (distinct_of_scalar? hv)) hplace

theorem Distinct.readValue (h : r.Distinct)
    (hread : r.readValue token = some r') : r'.Distinct := by
  unfold Reading.readValue at hread
  split at hread
  · exact h.openFrame (f := .array []) (List.forall_mem_nil _) hread
  · exact h.openFrame (f := .braces []) (List.forall_mem_nil _) hread
  · exact h.place (.leaf (.text _)) hread
  · exact Option.some.inj hread ▸ h.expect _
  · exact Option.some.inj hread ▸ h.expect _
  · cases hread

theorem Distinct.readRest (h : r.Distinct)
    (hread : r.readRest token = some r') : r'.Distinct := by
  unfold Reading.readRest at hread
  split at hread
  · exact Option.some.inj hread ▸ h.expect _
  · exact Option.some.inj hread ▸ h.expect _
  · split at hread
    · exact Option.some.inj hread ▸ h.expect _
    · split at hread
      · exact Option.some.inj hread ▸ h.expect _
      · cases hread
  · split at hread
    · exact Option.some.inj hread ▸ h.expect _
    · exact Option.some.inj hread ▸ h.expect _
    · cases hread
  · exact h.closeArray hread
  · exact h.closeBraces hread
  · cases hread

theorem Distinct.readStatement (h : r.Distinct)
    (hread : r.readStatement token = some r') : r'.Distinct := by
  unfold Reading.readStatement at hread
  split at hread
  · exact Option.some.inj hread ▸ h
  · exact Option.some.inj hread ▸ h
  · exact Option.some.inj hread ▸ h
  · exact Option.some.inj hread ▸ h.expect _
  · exact h.readKeyPart hread

/-- One token keeps the fields of what has been read distinct. -/
theorem Distinct.step (h : r.Distinct) (hstep : r.step token = some r') : r'.Distinct := by
  have hsame : ∀ {x : Reading}, some r = some x → x.Distinct :=
    fun hx => Option.some.inj hx ▸ h
  have hmode : ∀ {mode : Mode} {x : Reading}, some (r.expect mode) = some x → x.Distinct :=
    fun hx => Option.some.inj hx ▸ h.expect _
  have hguard : ∀ {b : Bool} {mode : Mode} {x : Reading},
      (if b then some (r.expect mode) else none) = some x → x.Distinct := by
    intro b mode x hx
    split at hx
    · exact hmode hx
    · cases hx
  have hscalar : ∀ {s : List Char} {x : Reading},
      ((r.placeScalar s).bind fun r => r.readRest token) = some x → x.Distinct := by
    intro s x hx
    obtain ⟨y, hy, hx⟩ := Option.bind_eq_some_iff.1 hx
    exact (h.placeScalar hy).readRest hx
  unfold Reading.step at hstep
  split at hstep
  case h_1 => exact h.readStatement hstep
  case h_2 =>
    split at hstep
    · exact hmode hstep
    · exact hmode hstep
    · exact h.readKeyPart hstep
  case h_3 =>
    split at hstep
    · exact hsame hstep
    · exact h.readKeyPart hstep
  case h_4 =>
    split at hstep
    · exact hsame hstep
    · exact hmode hstep
    · exact hguard hstep
    · exact hguard hstep
    · exact h.endKey hstep
  case h_5 =>
    split at hstep
    · exact hsame hstep
    · exact hsame hstep
    · exact hsame hstep
    · exact h.endKey hstep
  case h_6 =>
    split at hstep
    · exact hsame hstep
    · exact hsame hstep
    · exact hsame hstep
    · exact h.closeBraces hstep
    · exact h.readKeyPart hstep
  case h_7 =>
    split at hstep
    · exact Option.some.inj hstep ▸ ⟨List.forall_mem_cons.2 ⟨trivial, h.statements⟩, h.stack⟩
    · cases hstep
  case h_8 =>
    split at hstep
    · exact hsame hstep
    · split at hstep
      · exact hsame hstep
      · cases hstep
    · split at hstep
      · exact hsame hstep
      · cases hstep
    · exact h.readValue hstep
  case h_9 =>
    split at hstep
    · exact hsame hstep
    · exact hsame hstep
    · exact hsame hstep
    · exact h.closeArray hstep
    · exact h.readValue hstep
  case h_10 =>
    split at hstep
    · exact hmode hstep
    · exact hmode hstep
    · split at hstep
      · exact hmode hstep
      · obtain ⟨x, hx, rfl⟩ := Option.map_eq_some_iff.1 hstep
        exact (h.placeScalar hx).expect _
    · exact hscalar hstep
  case h_11 =>
    split at hstep
    · exact hmode hstep
    · exact hscalar hstep
  case h_12 => exact h.readRest hstep

theorem Distinct.finish {statements : List Statement} (h : r.Distinct)
    (hfinish : r.finish = some statements) :
    ∀ s ∈ statements, s.Distinct := by
  obtain ⟨x, hx, hstatements⟩ := Option.bind_eq_some_iff.1 hfinish
  have hdistinct : x.Distinct := by
    split at hx
    · exact Option.some.inj hx ▸ h
    · exact Option.some.inj hx ▸ h
    · exact h.placeScalar hx
    · exact h.placeScalar hx
    · cases hx
  split at hstatements
  · obtain rfl := Option.some.inj hstatements
    exact fun s hs => hdistinct.statements s (List.mem_reverse.1 hs)
  · cases hstatements

end Reading

/-- If every step of a computation over a list keeps a property, so does the whole. -/
theorem of_foldlM {σ α : Type} {P : σ → Prop} {step : σ → α → Option σ} {l : List α}
    (hstep : ∀ a ∈ l, ∀ s s', P s → step s a = some s' → P s') {s s' : σ} (hs : P s)
    (h : l.foldlM step s = some s') : P s' := by
  induction l generalizing s with
  | nil =>
      obtain rfl := Option.some.inj h
      exact hs
  | cons a l ih =>
      rw [List.foldlM_cons] at h
      obtain ⟨next, hnext, h⟩ := Option.bind_eq_some_iff.1 h
      exact ih (fun b hb => hstep b (List.mem_cons_of_mem _ hb))
        (hstep a List.mem_cons_self s next hs hnext) h

theorem distinct_of_statements? {s : List Char} {statements : List Statement}
    (h : statements? s = some statements) : ∀ s ∈ statements, s.Distinct := by
  obtain ⟨r, hr, hfinish⟩ := Option.bind_eq_some_iff.1 h
  have hstart : Reading.start.Distinct := ⟨List.forall_mem_nil _, List.forall_mem_nil _⟩
  exact (of_foldlM (fun token _ r r' h hstep => Reading.Distinct.step h hstep) hstart
    hr).finish hfinish

theorem Construction.distinct_add {c c' : Construction} {s : Statement}
    (hc : c.fields.Distinct)
    (hs : s.Distinct) (h : c.add s = some c') : c'.fields.Distinct := by
  cases s with
  | assign path t =>
      obtain ⟨v, hv, h⟩ := Option.bind_eq_some_iff.1 h
      obtain ⟨fs, hfs, h⟩ := Option.bind_eq_some_iff.1 h
      obtain rfl := Option.some.inj h
      exact hc.change (fun fs fs' hfs hassign =>
        hfs.assign (Term.Distinct.value hs hv) hassign) hfs
  | header path =>
      obtain ⟨fs, hfs, h⟩ := Option.bind_eq_some_iff.1 h
      obtain rfl := Option.some.inj h
      exact hc.declare declares_table hfs
  | listHeader path =>
      obtain ⟨fs, hfs, h⟩ := Option.bind_eq_some_iff.1 h
      obtain rfl := Option.some.inj h
      exact hc.declare declares_next hfs

/-- The fields of a table that is read have different names, and so have those of all tables
in it. -/
theorem distinct_of_read? {s : List Char} {fs : List (String × Value)}
    (h : read? s = some fs) :
    (Value.table fs).Distinct := by
  obtain ⟨statements, hstatements, h⟩ := Option.bind_eq_some_iff.1 h
  obtain ⟨c, hc, h⟩ := Option.bind_eq_some_iff.1 h
  obtain rfl := Option.some.inj h
  have hdistinct := distinct_of_statements? hstatements
  have hfields : c.fields.Distinct :=
    of_foldlM (P := fun c => Construction.fields c |>.Distinct)
      (fun s hs c c' hc hadd => Construction.distinct_add hc (hdistinct s hs) hadd) .nil hc
  exact hfields.toValue

/-- Whatever can be taken for a table has fields of different names. -/
theorem Value.Distinct.fields {v : Value} {fs : List (String × Value)} (h : v.Distinct)
    (hfs : v.fields? = some fs) : (Value.table fs).Distinct := by
  cases v with
  | table fields => exact Option.some.inj hfs ▸ h
  | moment literal =>
      obtain rfl := Option.some.inj hfs
      exact .table (List.nodup_singleton _) (List.forall_mem_singleton.2 (.text literal))
  | _ => cases hfs

theorem Value.Distinct.names {fs : List (String × Value)} (h : (Value.table fs).Distinct) :
    (fs.map Prod.fst).Nodup := by
  cases h with
  | table hnames _ => exact hnames

end Statements

end Toml
end DocLinks
