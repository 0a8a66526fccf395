import DocLinks.Proofs.FileSettings
import DocLinks.Proofs.ListSteps
import DocLinks.Settings.Load
import Mathlib.Data.List.Infix
import Mathlib.Data.List.Sort

/-!
# The layers of the settings

The settings of a run have three layers.  What was chosen for the run counts first, then what
the file gives, then the defaults.

**The file.**  It is the one that was asked for, or else the nearest one of the usual name;
there may be none.

**References.**  They are replaced in what the file gives, and only there; a default has
none.

**Validity.**  The settings are validated before what was chosen for the run is put on top.
What can be chosen is not what is validated, so the settings of the run are valid too.

**Results.**
* `MeansLinks.unique`: a table of links has one order.
* `loadFile_eq_ok_iff`: the settings of a file.
* `layered_iff`: what was chosen for a run is put on top of the other layers.
* `load_eq_ok_iff`: settings are loaded if and only if they are what the layers give, and are
  valid.
-/

namespace DocLinks

namespace Files

variable {files : Files} {name path : String}

/-- The nearest file of a name: one is there in a directory, and none in those that are
nearer. -/
def IsNearest (files : Files) (name path : String) : Prop :=
  ∃ nearer directory further, files.searchPath = nearer ++ directory :: further ∧
    path = within directory name ∧ files.isPresent path = true ∧
    ∀ d ∈ nearer, files.isPresent (within d name) = false

theorem find?_eq_some_iff : files.find? name = some path ↔ files.IsNearest name path := by
  rw [find?, List.find?_eq_some_iff_append]
  constructor
  · rintro ⟨hpresent, front, back, hsplit, hnone⟩
    obtain ⟨nearer, rest, hsearch, rfl, hrest⟩ := List.map_eq_append_iff.1 hsplit
    obtain ⟨directory, further, rfl, hpath, -⟩ := List.map_eq_cons_iff.1 hrest
    refine ⟨nearer, directory, further, hsearch, hpath.symm, hpresent, fun d hd => ?_⟩
    simpa using hnone _ (List.mem_map_of_mem hd)
  · rintro ⟨nearer, directory, further, hsearch, rfl, hpresent, hnone⟩
    refine ⟨hpresent, nearer.map (within · name), further.map (within · name), ?_, ?_⟩
    · rw [hsearch, List.map_append, List.map_cons]
    · intro p hp
      obtain ⟨d, hd, rfl⟩ := List.mem_map.1 hp
      simpa using hnone d hd

theorem find?_eq_none_iff :
    files.find? name = none ↔ ∀ d ∈ files.searchPath,
    files.isPresent (within d name) = false := by
  simp [find?]

end Files

namespace Settings

section Meanings

/-- A text in which the references to the environment have been replaced. -/
def MeansUrl (env : Environment) (v : Toml.Value) (url : String) : Prop :=
  ∃ text, v = .text text ∧ env.expand text = .ok url

/-- The links of a table, with the references to the environment replaced, in ascending order
of the names. -/
structure MeansLinks (env : Environment) (v : Toml.Value)
    (links : List (String × String)) : Prop where
  ascending : links.Pairwise fun a b => a.1 < b.1
  table : ∃ fs, v.fields? = some fs ∧
  (∀ name w, (name, w) ∈ fs → ∃ url, MeansUrl env w url) ∧
    ∀ name url, (name, url) ∈ links ↔ ∃ w, (name, w) ∈ fs ∧ MeansUrl env w url

variable {v? : Option Toml.Value}

theorem Takes.congr {α : Type} {Means Means' : Toml.Value → α → Prop} {default a : α}
    (h : ∀ v, v? = some v → (Means v a ↔ Means' v a)) :
    Takes Means default v? a ↔ Takes Means' default v? a := by
  cases v? with
  | none => exact ⟨fun (.missing) => .missing, fun (.missing) => .missing⟩
  | some v =>
      exact ⟨fun (.given hv) => .given ((h v rfl).1 hv),
        fun (.given hv) => .given ((h v rfl).2 hv)⟩

/-- What is done to a setting that was taken may be done to what the file gives, if it
changes no default. -/
theorem takes_comp_iff {α β : Type} {Means : Toml.Value → α → Prop}
    (Becomes : α → β → Prop) {default : α}
    {default' b : β} (hdefault : ∀ b, Becomes default b ↔ b = default') :
    (∃ a, Takes Means default v? a ∧ Becomes a b) ↔
      Takes (fun v b => ∃ a, Means v a ∧ Becomes a b) default' v? b := by
  constructor
  · rintro ⟨a, (_ | hv), hb⟩
    · exact (hdefault b).1 hb ▸ .missing
    · exact .given ⟨a, hv, hb⟩
  · rintro (_ | ⟨a, hv, hb⟩)
    · exact ⟨default, .missing, (hdefault _).2 rfl⟩
    · exact ⟨a, .given hv, hb⟩

end Meanings

section Links

variable {env : Environment} {fs : TableFields} {v : Toml.Value}
  {l links links' : List (String × String)}

theorem mapM_link?_eq_some_iff :
    fs.mapM link? = some l ↔ fs = l.map fun e => (e.1, .text e.2) := by
  induction fs generalizing l with
  | nil => cases l <;> simp
  | cons f fs ih =>
      obtain ⟨name, w⟩ := f
      rw [List.mapM_cons]
      constructor
      · intro h
        obtain ⟨e, he, h⟩ := Option.bind_eq_some_iff.1 h
        obtain ⟨rest, hrest, h⟩ := Option.bind_eq_some_iff.1 h
        obtain rfl := Option.some.inj h
        obtain ⟨text, htext, rfl⟩ := Option.map_eq_some_iff.1 he
        cases w with
        | text t =>
            obtain rfl := Option.some.inj htext
            rw [ih.1 hrest, List.map_cons]
        | _ => cases htext
      · intro h
        cases l with
        | nil => cases h
        | cons e l =>
            obtain ⟨hf, hfs⟩ := List.cons.inj h
            obtain ⟨rfl, rfl⟩ := Prod.mk.inj hf
            rw [ih.2 hfs]
            rfl

/-- A link, and what it becomes. -/
def Expands (env : Environment) (a b : String × String) : Prop :=
  a.1 = b.1 ∧ env.expand a.2 = .ok b.2

theorem expandText_eq_ok_iff {setting : ExpandedSetting} {text text' : String} :
    expandText env setting text = .ok text' ↔ env.expand text = .ok text' := by
  rw [expandText, mapError_eq_ok_iff]

theorem expandLinks_eq_ok_iff :
    expandLinks env l = .ok links ↔ List.Forall₂ (Expands env) l links := by
  induction l generalizing links with
  | nil => cases links <;> simp [expandLinks]
  | cons e l ih =>
      obtain ⟨name, text⟩ := e
      rw [expandLinks, bind_eq_ok_iff]
      constructor
      · rintro ⟨url, hurl, h⟩
        obtain ⟨rest, hrest, h⟩ := bind_eq_ok_iff.1 h
        cases h
        exact .cons ⟨rfl, expandText_eq_ok_iff.1 hurl⟩ (ih.1 hrest)
      · rintro (_ | ⟨⟨hname, hurl⟩, hrest⟩)
        rename_i b rest
        obtain ⟨_, url⟩ := b
        obtain rfl : name = _ := hname
        exact ⟨url, expandText_eq_ok_iff.2 hurl, bind_eq_ok_iff.2 ⟨rest, ih.2 hrest, rfl⟩⟩

theorem map_fst_eq_of_expands (h : List.Forall₂ (Expands env) l links) :
    l.map Prod.fst = links.map Prod.fst := by
  induction h with
  | nil => rfl
  | cons hab _ ih => rw [List.map_cons, List.map_cons, hab.1, ih]

/-- Links of which each one can be expanded can all be expanded. -/
theorem exists_expandLinks (env : Environment)
    (h : ∀ e ∈ l, ∃ url, env.expand e.2 = .ok url) :
    ∃ links, expandLinks env l = .ok links := by
  obtain ⟨links, -, hlinks⟩ :=
    mapM_forall₂ (f := fun e => (env.expand e.2).map (e.1, ·)) (R := Expands env)
    fun e he => by
      obtain ⟨url, hurl⟩ := h e he
      exact ⟨(e.1, url), by rw [hurl]; rfl, rfl, hurl⟩
  exact ⟨links, expandLinks_eq_ok_iff.2 hlinks⟩

theorem pairwise_sorted (hnames : (l.map Prod.fst).Nodup) :
    (l.mergeSort fun a b => decide (a.1 ≤ b.1)).Pairwise fun a b => a.1 < b.1 := by
  have hsorted : (l.mergeSort fun a b => decide (a.1 ≤ b.1)).Pairwise fun a b => a.1 ≤ b.1 :=
    pairwise_mergeSort_decide (fun a b => a.1 ≤ b.1) (fun _ _ _ => String.le_trans)
      (fun a b => String.le_total a.1 b.1) l
  have hdistinct : (l.mergeSort fun a b => decide (a.1 ≤ b.1)).Pairwise
      fun a b => a.1 ≠ b.1 :=
    List.pairwise_map.1 (((List.mergeSort_perm l _).map Prod.fst).nodup_iff.2 hnames)
  refine (hsorted.and hdistinct).imp fun {a b} h => ?_
  by_contra hlt
  exact h.2 (String.le_antisymm h.1 (String.not_lt.1 hlt))

/-- A table has its links in one order only. -/
theorem MeansLinks.unique (h : MeansLinks env v links) (h' : MeansLinks env v links') :
    links = links' := by
  obtain ⟨fs, hfs, -, hmem⟩ := h.table
  obtain ⟨fs', hfs', -, hmem'⟩ := h'.table
  obtain rfl := Option.some.inj (hfs.symm.trans hfs')
  have hnodup : ∀ {m : List (String × String)},
      (m.Pairwise fun a b => a.1 < b.1) → m.Nodup := by
    refine fun hm => hm.imp ?_
    rintro a _ hlt rfl
    exact String.lt_irrefl _ hlt
  have hperm : links.Perm links' :=
    (List.perm_ext_iff_of_nodup (hnodup h.ascending) (hnodup h'.ascending)).2 fun e =>
      (hmem e.1 e.2).trans (hmem' e.1 e.2).symm
  exact hperm.eq_of_pairwise (fun a b _ _ hab hba =>
    absurd (String.lt_trans hab hba) (String.lt_irrefl _))
    h.ascending h'.ascending

theorem meansLinks_of_expandLinks (hfs : v.fields? = some fs)
    (hnames : (fs.map Prod.fst).Nodup)
    (hl : fs.mapM link? = some l)
    (hlinks : expandLinks env (l.mergeSort fun a b => decide (a.1 ≤ b.1)) = .ok links) :
    MeansLinks env v links := by
  obtain rfl := mapM_link?_eq_some_iff.1 hl
  have hexpands := expandLinks_eq_ok_iff.1 hlinks
  rw [List.map_map] at hnames
  refine ⟨?_, _, hfs, fun name w hw => ?_, fun name url => ⟨fun hmem => ?_, ?_⟩⟩
  · have hsame : (l.mergeSort fun a b => decide (a.1 ≤ b.1)).map Prod.fst =
        links.map Prod.fst :=
      map_fst_eq_of_expands hexpands
    rw [← List.pairwise_map, ← hsame, List.pairwise_map]
    exact pairwise_sorted hnames
  · obtain ⟨e, he, heq⟩ := List.mem_map.1 hw
    obtain ⟨rfl, rfl⟩ := Prod.mk.inj heq
    obtain ⟨b, -, hb⟩ := exists_of_forall₂ hexpands (List.mem_mergeSort.2 he)
    exact ⟨b.2, e.2, rfl, hb.2⟩
  · obtain ⟨e, he, hname, hurl⟩ := exists_of_forall₂ hexpands.flip hmem
    exact ⟨_, List.mem_map.2 ⟨e, List.mem_mergeSort.1 he, by rw [hname]⟩, e.2, rfl, hurl⟩
  · rintro ⟨w, hw, text, rfl, hurl⟩
    obtain ⟨e, he, heq⟩ := List.mem_map.1 hw
    obtain ⟨rfl, htext⟩ := Prod.mk.inj heq
    obtain rfl := Toml.Value.text.inj htext
    obtain ⟨⟨name, url'⟩, hb, hname, hexpand⟩ :=
      exists_of_forall₂ hexpands (List.mem_mergeSort.2 he)
    obtain rfl := Except.ok.inj (hurl.symm.trans hexpand)
    obtain rfl : e.1 = name := hname
    exact hb

/-- The links of a table are in order and expand one by one. -/
theorem exists_links?_iff (hv : v.Distinct) :
    (∃ raw, links? v = some raw ∧ expandLinks env raw = .ok links) ↔
    MeansLinks env v links := by
  constructor
  · rintro ⟨raw, hraw, hlinks⟩
    obtain ⟨fs, hfs, hraw⟩ := Option.bind_eq_some_iff.1 hraw
    obtain ⟨l, hl, rfl⟩ := Option.map_eq_some_iff.1 hraw
    exact meansLinks_of_expandLinks hfs (hv.fields hfs).names hl hlinks
  · intro h
    obtain ⟨fs, hfs, hmeans, -⟩ := h.table
    have htexts : ∃ l : List (String × String), fs = l.map fun e => (e.1, .text e.2) := by
      refine ⟨fs.map fun f => (f.1, f.2.text?.getD ""), ?_⟩
      rw [List.map_map]
      refine (List.map_id fs).symm.trans (List.map_congr_left fun f hf => ?_)
      obtain ⟨-, text, hw, -⟩ := hmeans f.1 f.2 hf
      exact Prod.ext rfl (by simp [hw, Toml.Value.text?])
    obtain ⟨l, rfl⟩ := htexts
    -- these texts can be put in order and expanded, and there is one order only
    have hl :=
      mapM_link?_eq_some_iff.2 (rfl : l.map (fun e => (e.1, Toml.Value.text e.2)) = _)
    obtain ⟨links', hlinks⟩ := exists_expandLinks env
      (l := l.mergeSort fun a b => decide (a.1 ≤ b.1)) fun e he => by
        obtain ⟨url, _, htext, hurl⟩ :=
          hmeans _ _ (List.mem_map_of_mem (List.mem_mergeSort.1 he))
        exact ⟨url, Toml.Value.text.inj htext ▸ hurl⟩
    obtain rfl := h.unique (meansLinks_of_expandLinks hfs (hv.fields hfs).names hl hlinks)
    exact ⟨_, Option.bind_eq_some_iff.2 ⟨_, hfs,
      Option.map_eq_some_iff.2 ⟨l, hl, rfl⟩⟩, hlinks⟩

end Links

section Layers

/-- The file that is used: the one that was asked for, or else the nearest one of the usual
name. -/
inductive Uses (files : Files) : Option String → String → Prop
  | asked {path : String} : files.isPresent path = true → Uses files (some path) path
  | nearest {path : String} : files.IsNearest fileName path → Uses files none path

/-- The settings of a run: what was chosen for it, above what the file gives, above the
defaults. -/
inductive Layered (files : Files) (env : Environment)
    (path : Option String) (o : Overrides) :
    Settings → Prop
  | defaults : path = none →
      (∀ d ∈ files.searchPath, files.isPresent (Files.within d fileName) = false) →
      Layered files env path o
        { showsLongnames := o.showsLongnames.getD false
          ticketBaseUrl := o.ticketBaseUrl.getD Expander.defaultBaseUrl
          ticketMark := Expander.defaultMark
          linkMap := []
          source := none }
  | file {used text : String} {g : Given} {longnames : Bool} {url mark : String}
      {links : List (String × String)} :
      Uses files path used → files.readText used = .ok text → Gives text g →
      Takes (fun v b => v = .bool b) false g.longnames longnames →
      Takes (MeansUrl env) Expander.defaultBaseUrl g.baseUrl url →
      Takes (fun v t => v = .text t) Expander.defaultMark g.mark mark →
      Takes (MeansLinks env) [] g.links links →
      Layered files env path o
        { showsLongnames := o.showsLongnames.getD longnames
          ticketBaseUrl := o.ticketBaseUrl.getD url
          ticketMark := mark
          linkMap := links
          source := some used }

variable {files : Files} {env : Environment} {o : Overrides}
  {path : Option String} {used : String}
  {v? : Option Toml.Value} {s s' : Settings}

theorem expand_eq_ok_iff :
    s.expand env = .ok s' ↔ ∃ url links, env.expand s.ticketBaseUrl = .ok url ∧
    expandLinks env s.linkMap = .ok links ∧
    { s with ticketBaseUrl := url, linkMap := links } = s' := by
  constructor
  · intro h
    obtain ⟨url, hurl, h⟩ := bind_eq_ok_iff.1 h
    obtain ⟨links, hlinks, h⟩ := bind_eq_ok_iff.1 h
    exact ⟨url, links, expandText_eq_ok_iff.1 hurl, hlinks, Except.ok.inj h⟩
  · rintro ⟨url, links, hurl, hlinks, rfl⟩
    exact bind_eq_ok_iff.2 ⟨url, expandText_eq_ok_iff.2 hurl,
      bind_eq_ok_iff.2 ⟨links, hlinks, rfl⟩⟩

theorem validated_eq_ok_iff : s.validated = .ok s' ↔ s.validate = .ok () ∧ s = s' := by
  unfold validated
  cases h : s.validate with
  | ok u => exact ⟨fun h => ⟨rfl, Except.ok.inj h⟩, fun h => congrArg _ h.2⟩
  | error d => exact ⟨nofun, nofun⟩

theorem exists_url_iff {url : String} :
    (∃ t, Takes (fun v t => v.text? = some t) Expander.defaultBaseUrl v? t ∧
      env.expand t = .ok url) ↔
      Takes (MeansUrl env) Expander.defaultBaseUrl v? url := by
  have hdefault : ∀ url, env.expand Expander.defaultBaseUrl = .ok url ↔
      url = Expander.defaultBaseUrl := by
    intro url
    rw [Environment.expand_of_not_occursIn env (by decide), Except.ok.injEq, eq_comm]
  rw [takes_comp_iff (fun t url => env.expand t = .ok url) hdefault]
  refine Takes.congr fun v _ =>
    ⟨fun ⟨text, htext, h⟩ => ?_, fun ⟨text, htext, h⟩ => ⟨text, ?_, h⟩⟩
  · exact ⟨text, Toml.Value.text?_eq_some_iff.1 htext, h⟩
  · exact Toml.Value.text?_eq_some_iff.2 htext

theorem exists_links_iff {links : List (String × String)}
    (hv : ∀ v, v? = some v → v.Distinct) :
    (∃ raw, Takes (fun v l => links? v = some l) [] v? raw ∧
      expandLinks env raw = .ok links) ↔
      Takes (MeansLinks env) [] v? links := by
  have hdefault : ∀ links, expandLinks env [] = .ok links ↔ links = [] := fun links => by
    rw [expandLinks, Except.ok.injEq, eq_comm]
  rw [takes_comp_iff (fun raw links => expandLinks env raw = .ok links) hdefault]
  exact Takes.congr fun v h => exists_links?_iff (hv v h)

/-- The settings of a file are what it gives for them, above the defaults. -/
theorem loadFile_eq_ok_iff : loadFile files env used = .ok s ↔
    (∃ text g, files.readText used = .ok text ∧ Gives text g ∧
      Takes (fun v b => v = .bool b) false g.longnames s.showsLongnames ∧
      Takes (MeansUrl env) Expander.defaultBaseUrl g.baseUrl s.ticketBaseUrl ∧
      Takes (fun v t => v = .text t) Expander.defaultMark g.mark s.ticketMark ∧
      Takes (MeansLinks env) [] g.links s.linkMap ∧ s.source = some used) ∧
      s.validate = .ok () := by
  have htake : ∀ {g : Option Toml.Value} {b : Bool},
      Takes (fun v b => v.bool? = some b) false g b ↔
      Takes (fun v b => v = .bool b) false g b :=
        Takes.congr fun _ _ => Toml.Value.bool?_eq_some_iff
  have hmark : ∀ {g : Option Toml.Value} {t : String},
      Takes (fun v t => v.text? = some t) Expander.defaultMark g t ↔
        Takes (fun v t => v = .text t) Expander.defaultMark g t :=
    Takes.congr fun _ _ => Toml.Value.text?_eq_some_iff
  constructor
  · intro h
    obtain ⟨text, htext, h⟩ := bind_eq_ok_iff.1 h
    have hread := mapError_eq_ok_iff.1 htext
    cases hs : ofText? text with
    | none =>
        rw [hs] at h
        cases h
    | some s₀ =>
        rw [hs] at h
        obtain ⟨s₁, hexpand, h⟩ := bind_eq_ok_iff.1 h
        obtain ⟨url, links, hurl, hlinks, rfl⟩ := expand_eq_ok_iff.1 hexpand
        obtain ⟨hvalid, rfl⟩ := validated_eq_ok_iff.1 h
        obtain ⟨g, hg, hs⟩ := ofText?_eq_some_iff.1 hs
        obtain ⟨hlongnames, hbaseUrl, hm, hl, -⟩ := ofValues?_eq_some_iff.1 hs
        exact ⟨⟨text, g, hread, hg, htake.1 hlongnames, exists_url_iff.1 ⟨_, hbaseUrl, hurl⟩,
          hmark.1 hm, (exists_links_iff fun v => hg.distinct).1 ⟨_, hl, hlinks⟩,
          rfl⟩, hvalid⟩
  · rintro ⟨⟨text, g, hread, hg, hlongnames, hbaseUrl, hm, hl, hsource⟩, hvalid⟩
    obtain ⟨url, hurl, hexpandUrl⟩ := exists_url_iff.2 hbaseUrl
    obtain ⟨raw, hraw, hexpandLinks⟩ := (exists_links_iff fun v => hg.distinct).2 hl
    have hs : ofText? text = some ⟨s.showsLongnames, url, s.ticketMark, raw, none⟩ :=
      ofText?_eq_some_iff.2 ⟨g, hg,
        ofValues?_eq_some_iff.2 ⟨htake.2 hlongnames, hurl, hmark.2 hm, hraw, rfl⟩⟩
    refine bind_eq_ok_iff.2 ⟨text, mapError_eq_ok_iff.2 hread, ?_⟩
    rw [hs]
    refine bind_eq_ok_iff.2 ⟨_, expand_eq_ok_iff.2 ⟨_, _, hexpandUrl, hexpandLinks, rfl⟩, ?_⟩
    refine validated_eq_ok_iff.2 ⟨hvalid, ?_⟩
    rw [← hsource]

/-- What was chosen for a run stands above all else. -/
theorem layered_iff {c : Settings} :
    Layered files env path o c ↔ ∃ s, Layered files env path {} s ∧ s.override o = c := by
  constructor
  · rintro (⟨hpath, hnone⟩ | ⟨hused, hread, hg, hlongnames, hbaseUrl, hmark, hlinks⟩)
    · exact ⟨_, .defaults hpath hnone, rfl⟩
    · exact ⟨_, .file hused hread hg hlongnames hbaseUrl hmark hlinks, rfl⟩
  · rintro ⟨s, ⟨hpath, hnone⟩ | ⟨hused, hread, hg, hlongnames, hbaseUrl, hmark, hlinks⟩, rfl⟩
    · exact .defaults hpath hnone
    · exact .file hused hread hg hlongnames hbaseUrl hmark hlinks

theorem layered_of_loadFile (hused : Uses files path used)
    (h : loadFile files env used = .ok s) :
    Layered files env path {} s ∧ s.validate = .ok () := by
  obtain ⟨⟨text, g, hread, hg, hlongnames, hbaseUrl, hmark, hlinks, hsource⟩, hvalid⟩ :=
    loadFile_eq_ok_iff.1 h
  obtain ⟨b, url, mark, links, source⟩ := s
  obtain rfl : source = some used := hsource
  exact ⟨.file hused hread hg hlongnames hbaseUrl hmark hlinks, hvalid⟩

/-- Below the settings of a run are those of the file that is used, or the defaults if there
is none. -/
theorem loadBase_eq_ok_iff :
    loadBase files env path = .ok s ↔ Layered files env path {} s ∧ s.validate = .ok () := by
  constructor
  · intro h
    cases path with
    | some path =>
        rw [loadBase] at h
        split at h
        · rename_i hpresent
          exact layered_of_loadFile (.asked hpresent) h
        · cases h
    | none =>
        rw [loadBase] at h
        split at h
        · rename_i found hfound
          exact layered_of_loadFile (.nearest (Files.find?_eq_some_iff.1 hfound)) h
        · rename_i hnone
          obtain rfl := Except.ok.inj h
          exact ⟨.defaults rfl (Files.find?_eq_none_iff.1 hnone), by decide⟩
  · rintro ⟨⟨rfl, hnone⟩ | ⟨hused, hread, hg, hlongnames, hbaseUrl, hmark, hlinks⟩, hvalid⟩
    · rw [loadBase, Files.find?_eq_none_iff.2 hnone]
      rfl
    · rename_i used _ _ _ _ _ _
      have hfile := loadFile_eq_ok_iff.2
        ⟨⟨_, _, hread, hg, hlongnames, hbaseUrl, hmark, hlinks, rfl⟩, hvalid⟩
      cases hused with
      | asked hpresent => exact (if_pos hpresent).trans hfile
      | nearest hnearest =>
          rw [loadBase, Files.find?_eq_some_iff.2 hnearest]
          exact hfile

/-- Settings are loaded if and only if they are what the layers give and are valid. -/
theorem load_eq_ok_iff (files : Files) (env : Environment)
    (path : Option String) (o : Overrides)
    (c : Settings) :
    load files env path o = .ok c ↔ Layered files env path o c ∧ c.validate = .ok () := by
  rw [load, map_eq_ok_iff, layered_iff]
  constructor
  · rintro ⟨s, hs, rfl⟩
    obtain ⟨hlayered, hvalid⟩ := loadBase_eq_ok_iff.1 hs
    exact ⟨⟨s, hlayered, rfl⟩, hvalid⟩
  · rintro ⟨⟨s, hlayered, rfl⟩, hvalid⟩
    exact ⟨s, loadBase_eq_ok_iff.2 ⟨hlayered, hvalid⟩, rfl⟩

end Layers

end Settings
end DocLinks
