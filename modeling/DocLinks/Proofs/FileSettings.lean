import DocLinks.Proofs.DistinctFields
import DocLinks.Settings.Table

/-!
# What a file gives for the settings

A file gives a value for each of the settings, or none.  The values are the fields of its
table `templates`, each of them under one of a few names, or the items of an array in its
place.  A setting for which there is no value keeps its default.

**Names.**  Of all the names that a setting may have, a table uses one at most; a table that
uses two of them gives nothing at all.

**Results.**
* `find?_eq_some_iff`: what is found for a setting is the only field with one of its names.
* `ofText?_eq_some_iff`: the settings in a text are what it gives for them, and defaults.
* `Gives.distinct`: in a value that is given no table has two fields of one name.
-/

namespace DocLinks

theorem Toml.Value.text?_eq_some_iff {v : Toml.Value} {t : String} :
    v.text? = some t ↔ v = .text t := by
  cases v <;> simp [Toml.Value.text?]

theorem Toml.Value.bool?_eq_some_iff {v : Toml.Value} {b : Bool} :
    v.bool? = some b ↔ v = .bool b := by
  cases v <;> simp [Toml.Value.bool?]

namespace Settings

section Given

/-- The value of a field under one of its names, if it has one.  No second field may have one
of them. -/
inductive Holds (names : List String) (fs : TableFields) : Option Toml.Value → Prop
  | missing : (∀ f ∈ fs, f.1 ∉ names) → Holds names fs none
  | given {front back : TableFields} {key : String} {v : Toml.Value} :
      fs = front ++ (key, v) :: back →
      key ∈ names → (∀ f ∈ front ++ back, f.1 ∉ names) → Holds names fs (some v)

/-- The values that a file gives for the settings. -/
structure Given where
  longnames : Option Toml.Value := none
  baseUrl : Option Toml.Value := none
  mark : Option Toml.Value := none
  links : Option Toml.Value := none

/-- What the text of a file gives for the settings: nothing, or the fields of a table, or the
items of an array. -/
inductive Gives (text : String) : Given → Prop
  | nothing {fs : TableFields} : Toml.read? text.toList = some fs →
      Holds ["templates"] fs none →
      Gives text {}
  | fields {fs inner : TableFields} {v : Toml.Value} {g : Given} :
      Toml.read? text.toList = some fs →
      Holds ["templates"] fs (some v) → v.fields? = some inner →
      Holds ["use_longname_in_nav", "useLongnameInNav"] inner g.longnames →
      Holds ["phabricator_base_url", "phabricatorBaseUrl", "phabricator"] inner g.baseUrl →
      Holds ["ticket_prefix", "ticketPrefix"] inner g.mark →
      Holds ["link_map", "linkMap"] inner g.links → Gives text g
  | items {fs : TableFields} {items : List Toml.Value} : Toml.read? text.toList = some fs →
      Holds ["templates"] fs (some (.array items)) →
      Gives text ⟨items[0]?, items[1]?, items[2]?, items[3]?⟩

/-- A setting is what the file gives for it, in the given sense, or the default. -/
inductive Takes {α : Type} (Means : Toml.Value → α → Prop) (default : α) :
    Option Toml.Value → α → Prop
  | missing : Takes Means default none default
  | given {v : Toml.Value} {a : α} : Means v a → Takes Means default (some v) a

end Given

section Reading

variable {names : List String} {fs : TableFields} {v : Toml.Value} {g : Option Toml.Value}

theorem find?_eq_some_iff : find? names fs = some g ↔ Holds names fs g := by
  unfold find?
  constructor
  · intro h
    split at h
    · rename_i hnone
      obtain rfl := Option.some.inj h
      exact .missing fun f hf hkey =>
        List.filter_eq_nil_iff.1 hnone f hf (List.contains_iff_mem.2 hkey)
    · rename_i key v hone
      obtain rfl := Option.some.inj h
      obtain ⟨front, back, hfs, hfront, hkey, hback⟩ := List.filter_eq_cons_iff.1 hone
      refine .given hfs (List.contains_iff_mem.1 hkey) fun f hf hname => ?_
      rcases List.mem_append.1 hf with hf | hf
      · exact hfront f hf (List.contains_iff_mem.2 hname)
      · exact List.filter_eq_nil_iff.1 hback f hf (List.contains_iff_mem.2 hname)
    · cases h
  · rintro (hnone | ⟨rfl, hkey, hother⟩)
    · rw [List.filter_eq_nil_iff.2 fun f hf hname =>
        hnone f hf (List.contains_iff_mem.1 hname)]
    · rename_i front back key v
      have hnone : ∀ l ⊆ front ++ back,
          (l.filter fun f => names.contains f.1) = [] := fun l hl =>
        List.filter_eq_nil_iff.2 fun f hf hname =>
          hother f (hl hf) (List.contains_iff_mem.1 hname)
      have hone :
          ((front ++ (key, v) :: back).filter fun f => names.contains f.1) = [(key, v)] := by
        rw [List.filter_append, List.filter_cons]
        rw [if_pos (List.contains_iff_mem.2 hkey), hnone front (List.subset_append_left _ _)]
        rw [hnone back (List.subset_append_right _ _), List.nil_append]
      rw [hone]

theorem readOr_eq_some_iff {α : Type} {read? : Toml.Value → Option α} {default a : α} :
    readOr read? default g = some a ↔ Takes (fun v a => read? v = some a) default g a := by
  constructor
  · intro h
    cases g with
    | none => exact Option.some.inj h ▸ .missing
    | some v => exact .given h
  · rintro (_ | h)
    · rfl
    · exact h

end Reading

section Texts

variable {text : String} {g : Given} {s : Settings}

theorem ofValues?_eq_some_iff {longnames baseUrl mark links : Option Toml.Value} :
    ofValues? longnames baseUrl mark links = some s ↔
      Takes (fun v b => v.bool? = some b) false longnames s.showsLongnames ∧
      Takes (fun v t => v.text? = some t) Expander.defaultBaseUrl baseUrl s.ticketBaseUrl ∧
      Takes (fun v t => v.text? = some t) Expander.defaultMark mark s.ticketMark ∧
      Takes (fun v l => links? v = some l) [] links s.linkMap ∧ s.source = none := by
  simp only [← readOr_eq_some_iff]
  constructor
  · intro h
    obtain ⟨b, hb, h⟩ := Option.bind_eq_some_iff.1 h
    obtain ⟨url, hurl, h⟩ := Option.bind_eq_some_iff.1 h
    obtain ⟨m, hm, h⟩ := Option.bind_eq_some_iff.1 h
    obtain ⟨l, hl, h⟩ := Option.bind_eq_some_iff.1 h
    obtain rfl := Option.some.inj h
    exact ⟨hb, hurl, hm, hl, rfl⟩
  · rintro ⟨hb, hurl, hm, hl, hsource⟩
    obtain ⟨b, url, m, l, source⟩ := s
    obtain rfl : source = none := hsource
    refine Option.bind_eq_some_iff.2 ⟨b, hb, ?_⟩
    refine Option.bind_eq_some_iff.2 ⟨url, hurl, ?_⟩
    refine Option.bind_eq_some_iff.2 ⟨m, hm, ?_⟩
    exact Option.bind_eq_some_iff.2 ⟨l, hl, rfl⟩

theorem ofFields?_eq_some_iff {fs : TableFields} : ofFields? fs = some s ↔ ∃ g : Given,
    Holds ["use_longname_in_nav", "useLongnameInNav"] fs g.longnames ∧
    Holds ["phabricator_base_url", "phabricatorBaseUrl", "phabricator"] fs g.baseUrl ∧
    Holds ["ticket_prefix", "ticketPrefix"] fs g.mark ∧
    Holds ["link_map", "linkMap"] fs g.links ∧
    ofValues? g.longnames g.baseUrl g.mark g.links = some s := by
  simp only [← find?_eq_some_iff]
  constructor
  · intro h
    obtain ⟨longnames, hlongnames, h⟩ := Option.bind_eq_some_iff.1 h
    obtain ⟨baseUrl, hbaseUrl, h⟩ := Option.bind_eq_some_iff.1 h
    obtain ⟨mark, hmark, h⟩ := Option.bind_eq_some_iff.1 h
    obtain ⟨links, hlinks, h⟩ := Option.bind_eq_some_iff.1 h
    exact ⟨⟨longnames, baseUrl, mark, links⟩, hlongnames, hbaseUrl, hmark, hlinks, h⟩
  · rintro ⟨g, hlongnames, hbaseUrl, hmark, hlinks, h⟩
    refine Option.bind_eq_some_iff.2 ⟨g.longnames, hlongnames, ?_⟩
    refine Option.bind_eq_some_iff.2 ⟨g.baseUrl, hbaseUrl, ?_⟩
    refine Option.bind_eq_some_iff.2 ⟨g.mark, hmark, ?_⟩
    exact Option.bind_eq_some_iff.2 ⟨g.links, hlinks, h⟩

theorem ofValue?_eq_some_iff {v : Toml.Value} : ofValue? v = some s ↔
    (∃ items, v = .array items ∧
      ofValues? items[0]? items[1]? items[2]? items[3]? = some s) ∨
      ∃ fs, v.fields? = some fs ∧ ofFields? fs = some s := by
  cases v with
  | array items => simp [ofValue?, Toml.Value.fields?]
  | _ => simp [ofValue?, Option.bind_eq_some_iff]

/-- The settings in a text are what it gives for them. -/
theorem ofText?_eq_some_iff : ofText? text = some s ↔
    ∃ g, Gives text g ∧ ofValues? g.longnames g.baseUrl g.mark g.links = some s := by
  constructor
  · intro h
    obtain ⟨fs, hfs, h⟩ := Option.bind_eq_some_iff.1 h
    obtain ⟨templates, htemplates, h⟩ := Option.bind_eq_some_iff.1 h
    rw [find?_eq_some_iff] at htemplates
    cases templates with
    | none => exact ⟨{}, .nothing hfs htemplates, h⟩
    | some v =>
        rcases ofValue?_eq_some_iff.1 h with ⟨items, rfl, h⟩ | ⟨inner, hinner, h⟩
        · exact ⟨_, .items hfs htemplates, h⟩
        · obtain ⟨g, hlongnames, hbaseUrl, hmark, hlinks, h⟩ := ofFields?_eq_some_iff.1 h
          exact ⟨g, .fields hfs htemplates hinner hlongnames hbaseUrl hmark hlinks, h⟩
  · rintro ⟨g, hg, h⟩
    have hread : ∀ {fs templates}, Toml.read? text.toList = some fs →
        Holds ["templates"] fs templates →
        (templates.elim (some {}) ofValue? = some s) → ofText? text = some s := by
      intro fs templates hfs htemplates h
      refine Option.bind_eq_some_iff.2 ⟨fs, hfs, ?_⟩
      refine Option.bind_eq_some_iff.2 ⟨templates, find?_eq_some_iff.2 htemplates, ?_⟩
      cases templates <;> exact h
    cases hg with
    | nothing hfs htemplates => exact hread hfs htemplates h
    | items hfs htemplates => exact hread hfs htemplates h
    | fields hfs htemplates hinner hlongnames hbaseUrl hmark hlinks =>
        have hfields := ofFields?_eq_some_iff.2 ⟨g, hlongnames, hbaseUrl, hmark, hlinks, h⟩
        exact hread hfs htemplates (ofValue?_eq_some_iff.2 (.inr ⟨_, hinner, hfields⟩))

theorem Holds.distinct {fs : TableFields} {names : List String} {v : Toml.Value}
    (hv : Holds names fs (some v)) (h : (Toml.Value.table fs).Distinct) : v.Distinct := by
  cases h with
  | table _ hvalues =>
      cases hv with
      | given hfs _ _ => exact hvalues _ (hfs ▸ List.mem_append_right _ List.mem_cons_self)

/-- The values that a file gives have fields of different names. -/
theorem Gives.distinct (h : Gives text g) {v : Toml.Value}
    (hv : g.links = some v) : v.Distinct := by
  cases h with
  | nothing _ _ => cases hv
  | @fields fs inner w _ hfs htemplates hinner _ _ _ hlinks =>
      have hw := htemplates.distinct (Toml.distinct_of_read? hfs)
      exact Holds.distinct (hv ▸ hlinks) (hw.fields hinner)
  | items hfs htemplates =>
      cases htemplates.distinct (Toml.distinct_of_read? hfs) with
      | array hitems => exact hitems v (List.mem_of_getElem? hv)

end Texts

end Settings
end DocLinks
