import DocLinks.Proofs.DocletFrame
import DocLinks.Proofs.ListSteps
import DocLinks.Proofs.PageFiles

/-!
# On which pages symbols live

While doclets are prepared and registered, names are used in two ways: as the owner of a
page, and as the long name of a doclet.  The first use of a name decides whether it has a
page of its own or lives on the page of another name.

**Invariant.**  `Settled`: every name that was used leads to the page that it lives on in the
end, and no other name is registered.

**Results.**
* `settled_page`, `settled_registerLink`: a use of a name keeps the invariant.
* `settled_registered`: the invariant holds of all names when all doclets are registered.
-/

namespace DocLinks
namespace Publication

/-- The long name on whose page a doclet is documented. -/
def owner (d : Doclet) : String :=
  (Registry.placement d).owner

/-- A use of a name: its page is asked for, or it is registered as the long name of a doclet.
-/
inductive Use where
  | page (name : String)
  | longname (name : String)
  deriving DecidableEq

/-- The name that is used. -/
def Use.name : Use → String
  | page name => name
  | longname name => name

/-- Asking for the page of a doclet before it is registered, which references to fragments
do. -/
def earlyUses (ds : List Doclet) : List Use :=
  (ds.filter fun d => d.see.any isHashLink).map fun d => .page (owner d)

/-- Registering doclets. -/
def laterUses (ds : List Doclet) : List Use :=
  ds.flatMap fun d => [.page (owner d), .longname d.longname]

/-- All uses of names in the order in which they happen. -/
def uses (ds : List Doclet) : List Use :=
  earlyUses ds ++ laterUses ds

/-- A name has a page of its own if that page is asked for before anything else; the global
page is there from the start. -/
def HasPage (ds : List Doclet) (name : String) : Prop :=
  name = Registry.globalName ∨ (uses ds).find? (·.name == name) = some (.page name)

/-- On whose page a name lives: on its own, or where the owner of its first doclet does. -/
inductive LivesWith (ds : List Doclet) : (name root : String) → Prop
  | own {name : String} : HasPage ds name → LivesWith ds name name
  | part {d : Doclet} {root : String} : Doclet.find? ds d.longname = some d →
      ¬ HasPage ds d.longname → LivesWith ds (owner d) root → LivesWith ds d.longname root

/-- A name leads to the page that it lives on.  The link of a part of a page is encoded, and
the file of a page is not. -/
def Leads (ds : List Doclet) (r : Registry) (name : String) : Prop :=
  ∃ root k, LivesWith ds name root ∧ r.find? root =
    some ⟨root, Registry.pageFile root k, false⟩ ∧
    (name = root ∨ ¬ HasPage ds name ∧ ∃ url, r.resolve? name = some url ∧
      (Registry.pageOf url).toList = Percent.encode (Registry.pageFile root k).toList)

/-- Whether a name is the global one or was used. -/
def Known (us : List Use) (name : String) : Prop :=
  name = Registry.globalName ∨ ∃ u ∈ us, u.name = name

/-- Every name that was used leads to the page that it lives on, and no other name is
registered. -/
structure Settled (ds : List Doclet) (r : Registry) (us : List Use) : Prop where
  known {name : String} : r.resolve? name ≠ none → Known us name
  leads {name : String} : Known us name → Leads ds r name

/-- Encoding leaves alone the name of a page that a doclet gets to through a part of it. -/
def EncodedOnce (ds : List Doclet) : Prop :=
  ∀ d ∈ ds, ∀ root, ¬ HasPage ds (owner d) → LivesWith ds (owner d) root →
    Percent.encode (Filename.basename root) = Filename.basename root

theorem LivesWith.hasPage {ds : List Doclet} {name root : String}
    (h : LivesWith ds name root) :
    HasPage ds root := by
  induction h with
  | own hpage => exact hpage
  | part _ _ _ ih => exact ih

variable {ds : List Doclet} {r r' : Registry} {us : List Use} {name : String}

theorem Known.mono (h : Known us name) (u : Use) : Known (us ++ [u]) name := by
  rcases h with h | ⟨v, hv, hname⟩
  · exact .inl h
  · exact .inr ⟨v, List.mem_append_left _ hv, hname⟩

theorem known_append_iff {u : Use} :
    Known (us ++ [u]) name ↔ Known us name ∨ u.name = name := by
  constructor
  · rintro (h | ⟨v, hv, hname⟩)
    · exact .inl (.inl h)
    · rcases List.mem_append.1 hv with hv | hv
      · exact .inl (.inr ⟨v, hv, hname⟩)
      · obtain rfl := List.mem_singleton.1 hv
        exact .inr hname
  · rintro (h | h)
    · exact h.mono u
    · exact .inr ⟨u, by simp, h⟩

/-- The first use of a name is found. -/
theorem find?_uses {u : Use} {rest : List Use} (hsplit : uses ds = us ++ u :: rest)
    (hnew : ¬ Known us u.name) : (uses ds).find? (·.name == u.name) = some u := by
  have hnone : us.find? (·.name == u.name) = none := by
    rw [List.find?_eq_none]
    intro v hv hname
    exact hnew (.inr ⟨v, hv, by simpa using hname⟩)
  rw [hsplit, List.find?_append, hnone]
  rw [Option.none_or, List.find?_cons]
  simp

theorem Leads.resolve? (h : Leads ds r name) : ∃ url, r.resolve? name = some url := by
  obtain ⟨root, k, -, hroot, rfl | ⟨-, url, hurl, -⟩⟩ := h
  · exact ⟨_, by rw [Registry.resolve?, hroot]; rfl⟩
  · exact ⟨url, hurl⟩

theorem Leads.of_isPrefix (h : Leads ds r name) (hstart : r.entries <+: r'.entries) :
    Leads ds r' name := by
  obtain ⟨root, k, hlives, hroot, hname⟩ := h
  refine ⟨root, k, hlives, Registry.find?_of_isPrefix hstart hroot, ?_⟩
  rcases hname with rfl | ⟨hpage, url, hurl, hencoded⟩
  · exact .inl rfl
  · exact .inr ⟨hpage, url, Registry.resolve?_of_isPrefix hstart hurl, hencoded⟩

theorem Settled.congr (h : Settled ds r us) (hentries : r'.entries = r.entries) :
    Settled ds r' us := by
  refine ⟨fun {name} hname => ?_, fun {name} hname => ?_⟩
  · rw [Registry.resolve?_congr hentries] at hname
    exact h.known hname
  · exact (h.leads hname).of_isPrefix (hentries ▸ List.prefix_rfl)

theorem Settled.resolve?_eq_none_iff (h : Settled ds r us) :
    r.resolve? name = none ↔ ¬ Known us name := by
  constructor
  · intro hnone hknown
    obtain ⟨url, hurl⟩ := (h.leads hknown).resolve?
    rw [hnone] at hurl
    simp at hurl
  · intro hnew
    by_contra hne
    exact hnew (h.known hne)

theorem settled_new : Settled ds Registry.new [] := by
  refine ⟨fun {name} hname => ?_, fun {name} hname => ?_⟩
  · left
    by_contra hne
    refine hname ?_
    simp [Registry.resolve?, Registry.find?, Registry.new, Ne.symm hne]
  · rcases hname with rfl | ⟨u, hu, -⟩
    · exact ⟨_, _, .own (.inl rfl), rfl, .inl rfl⟩
    · simp at hu

/-- An entry for a name that is new settles it, if it leads to the page of the name. -/
theorem Settled.append (h : Settled ds r us) {u : Use} {e : Entry} (he : e.name = u.name)
    (hentries : r'.entries = r.entries ++ [e])
    (hleads : Leads ds r' u.name) : Settled ds r' (us ++ [u]) := by
  refine ⟨fun {name} hname => ?_, fun {name} hname => ?_⟩
  · rw [known_append_iff]
    by_cases hu : u.name = name
    · exact .inr hu
    · refine .inl (h.known ?_)
      rw [Registry.resolve?, Registry.find?] at hname
      rw [hentries, List.find?_append] at hname
      rw [Registry.resolve?, Registry.find?]
      simpa [he, hu] using hname
  · rcases known_append_iff.1 hname with hname | rfl
    · exact (h.leads hname).of_isPrefix (hentries ▸ List.prefix_append _ _)
    · exact hleads

/-- A use of a name that leads to its page already changes nothing. -/
theorem Settled.again (h : Settled ds r us) {u : Use} (hu : Known us u.name)
    (hentries : r'.entries = r.entries) : Settled ds r' (us ++ [u]) := by
  have h' := h.congr hentries
  refine ⟨fun {name} hname => (h'.known hname).mono u, fun {name} hname => ?_⟩
  rcases known_append_iff.1 hname with hname | rfl
  · exact h'.leads hname
  · exact h'.leads hu

/-- Asking for the page of a name settles the name. -/
theorem settled_page (h : Settled ds r us) {rest : List Use}
    (hsplit : uses ds = us ++ .page name :: rest) :
    Settled ds (r.pageFor name).2 (us ++ [.page name]) := by
  rcases r.entries_pageFor name with ⟨hsome, hentries⟩ | ⟨hnone, k, hentries⟩
  · exact h.again (h.known hsome) hentries
  · have hpage : HasPage ds name :=
      .inr (find?_uses hsplit (h.resolve?_eq_none_iff.1 hnone))
    refine h.append rfl hentries ⟨name, k, .own hpage, ?_, .inl rfl⟩
    have hfind : r.find? name = none := by simpa [Registry.resolve?] using hnone
    rw [Registry.find?] at hfind ⊢
    rw [hentries, List.find?_append, hfind]
    simp

theorem settled_createLink (h : Settled ds r us) {d : Doclet} {rest : List Use}
    (hsplit : uses ds = us ++ .page (owner d) :: rest) :
    Settled ds (r.createLink d).2 (us ++ [.page (owner d)]) :=
  (settled_page h hsplit).congr (r.entries_createLink d)

/-- A link that leads to the encoded page of the owner leads to the page that the doclet
lives on. -/
theorem Leads.of_owner {d : Doclet} (howner : Leads ds r (owner d))
    (hencoded : EncodedOnce ds)
    (hd : d ∈ ds) (hfirst : Doclet.find? ds d.longname = some d)
    (hpage : ¬ HasPage ds d.longname)
    (hstart : r.entries <+: r'.entries) {url link : String}
    (hurl : r.resolve? (owner d) = some url) (hlink : r'.resolve? d.longname = some link)
    (hpageOf : (Registry.pageOf link).toList = Percent.encode (Registry.pageOf url).toList) :
    Leads ds r' d.longname := by
  obtain ⟨root, k, hlives, hroot, hcases⟩ := howner
  refine ⟨root, k, .part hfirst hpage hlives, Registry.find?_of_isPrefix hstart hroot,
    .inr ⟨hpage, link, hlink, ?_⟩⟩
  rw [hpageOf]
  rcases hcases with rfl | ⟨hpart, url', hurl', hpageOf'⟩
  · rw [Registry.resolve?, hroot] at hurl
    obtain rfl : Registry.pageFile (owner d) k = url := Option.some.inj hurl
    rw [Registry.pageOf_of_not_mem (Registry.hash_not_mem_pageFile _ k)]
  · obtain rfl := Option.some.inj (hurl.symm.trans hurl')
    have hfile := Registry.encode_pageFile k (hencoded d hd root hpart hlives)
    rw [hpageOf', hfile, hfile]

/-- Where a doclet is documented and what it is called are as before. -/
def SamePlace (d d' : Doclet) : Prop :=
  Registry.placement d' = Registry.placement d ∧ d'.longname = d.longname

theorem SamePlace.registerLink_eq {d d' : Doclet} (h : SamePlace d d')
    (hne : d.longname ≠ "")
    (r : Registry) : registerLink r d' =
      (r.createLink d').2.register d.longname (r.createLink d').1 := by
  unfold registerLink
  rw [h.2, if_neg (by simpa using hne)]

/-- A doclet is the first one of its long name if none of those in front has used the name. -/
theorem find?_of_not_known {front back : List Doclet} {d : Doclet}
    (hds : ds = front ++ d :: back) (hfront : ∀ e ∈ front, Known us e.longname)
    (hnew : ¬ Known us d.longname) : Doclet.find? ds d.longname = some d := by
  have hfree : front.find? (·.longname == d.longname) = none := by
    rw [List.find?_eq_none]
    intro e he hname
    have hname : e.longname = d.longname := by simpa using hname
    exact hnew (hname ▸ hfront e he)
  rw [Doclet.find?, hds, List.find?_append]
  rw [hfree, Option.none_or, List.find?_cons]
  simp

/-- A name that is first used as a long name has no page. -/
theorem not_hasPage_of_not_known {name : String} {later : List Use}
    (hsplit : uses ds = us ++ .longname name :: later) (hnew : ¬ Known us name) :
    ¬ HasPage ds name := by
  rintro (hglobal | hfind)
  · exact hnew (.inl hglobal)
  · have hfirst := find?_uses hsplit hnew
    rw [Use.name, hfind] at hfirst
    simp at hfirst

/-- Registering a doclet settles its owner and its long name. -/
theorem settled_registerLink (h : Settled ds r us) (hencoded : EncodedOnce ds)
    {front back : List Doclet} {d d' : Doclet} (hds : ds = front ++ d :: back)
    (hfront : ∀ e ∈ front, Known us e.longname) (hsame : SamePlace d d')
    (hne : d.longname ≠ "")
    {later : List Use}
    (hsplit : uses ds = us ++ .page (owner d) :: .longname d.longname :: later) :
    Settled ds (registerLink r d') (us ++ [.page (owner d)] ++ [.longname d.longname]) := by
  have howner : owner d' = owner d := congrArg Registry.Placement.owner hsame.1
  have hpage : Settled ds (r.createLink d').2 (us ++ [.page (owner d)]) := by
    rw [← howner] at hsplit ⊢
    exact settled_createLink h hsplit
  rw [hsame.registerLink_eq hne]
  cases hcontains : (r.createLink d').2.contains d.longname with
  | true =>
      obtain ⟨url, hurl⟩ := (Registry.contains_iff _ _).1 hcontains
      refine hpage.again (hpage.known (by simp [Use.name, hurl])) ?_
      rw [Registry.entries_register, hcontains]
      rfl
  | false =>
      have hnone := Registry.contains_eq_false_iff.1 hcontains
      have hnew := hpage.resolve?_eq_none_iff.1 hnone
      have hentries : ((r.createLink d').2.register d.longname (r.createLink d').1).entries =
          (r.createLink d').2.entries ++ [⟨d.longname, (r.createLink d').1, false⟩] := by
        rw [Registry.entries_register, hcontains]
        rfl
      have hfirst : Doclet.find? ds d.longname = some d :=
        find?_of_not_known hds (fun e he => (hfront e he).mono _) hnew
      have hsplit' : uses ds = (us ++ [.page (owner d)]) ++
          .longname d.longname :: later := by
        rw [hsplit]
        simp
      have hpart : ¬ HasPage ds d.longname := not_hasPage_of_not_known hsplit' hnew
      obtain ⟨url, hurl, hlink⟩ := r.pageOf_createLink d'
      rw [hsame.1] at hurl
      refine hpage.append rfl hentries ?_
      have hleads := hpage.leads (known_append_iff.2 (.inr rfl))
      refine hleads.of_owner hencoded (hds ▸ by simp) hfirst hpart
        (hentries ▸ List.prefix_append _ _) hurl ?_ hlink
      rw [Registry.resolve?_register]
      simp [hcontains]

theorem earlyUses_cons (d : Doclet) (ds : List Doclet) :
    earlyUses (d :: ds) =
      (if d.see.any isHashLink then [.page (owner d)] else []) ++ earlyUses ds := by
  by_cases hsee : d.see.any isHashLink = true
  · simp [earlyUses, hsee]
  · simp [earlyUses, hsee]

theorem laterUses_cons (d : Doclet) (ds : List Doclet) :
    laterUses (d :: ds) = .page (owner d) :: .longname d.longname :: laterUses ds :=
  rfl

theorem registry_prepare (r : Registry) (d : Doclet) :
    (prepare r d).2 = if d.see.any isHashLink then (r.createLink (tidy d)).2 else r := by
  have hsee : (tidy d).see = d.see := rfl
  simp only [prepare, hsee]
  split
  · rfl
  · rfl

/-- Preparing doclets settles the owners of those that ask for their page early. -/
theorem settled_prepareAll {later : List Doclet} {rest : List Use} (h : Settled ds r us)
    (hsplit : uses ds = us ++ (earlyUses later ++ rest)) :
    Settled ds (prepareAll r later).2 (us ++ earlyUses later) := by
  induction later generalizing r us with
  | nil => simpa [earlyUses, prepareAll] using h
  | cons d later ih =>
      rw [earlyUses_cons] at hsplit ⊢
      have hstep : Settled ds (prepare r d).2
          (us ++ if d.see.any isHashLink then [.page (owner d)] else []) := by
        rw [registry_prepare]
        split
        · rename_i hsee
          rw [if_pos hsee] at hsplit
          exact settled_createLink (d := tidy d) h hsplit
        · rw [List.append_nil]
          exact h
      rw [← List.append_assoc]
      exact ih hstep (by rw [hsplit]; simp)

/-- Registering doclets settles their owners and their long names. -/
theorem settled_foldl_registerLink (hencoded : EncodedOnce ds)
    {front later later' : List Doclet}
    (h : Settled ds r us) (hds : ds = front ++ later)
    (hsame : List.Forall₂ SamePlace later later')
    (hne : ∀ d ∈ ds, d.longname ≠ "") (hfront : ∀ e ∈ front, Known us e.longname)
    (hsplit : uses ds = us ++ laterUses later) :
    Settled ds (later'.foldl registerLink r) (us ++ laterUses later) := by
  induction hsame generalizing r us front with
  | nil => simpa [laterUses] using h
  | @cons d d' later later' hd _ ih =>
      rw [laterUses_cons] at hsplit ⊢
      have hstep := settled_registerLink h hencoded hds hfront hd
        (hne d (hds ▸ by simp)) hsplit
      have hds' : ds = (front ++ [d]) ++ later := by
        rw [hds, List.append_assoc]
        rfl
      have hfront' : ∀ e ∈ front ++ [d],
          Known (us ++ [.page (owner d)] ++ [.longname d.longname]) e.longname := by
        intro e he
        rcases List.mem_append.1 he with he | he
        · exact ((hfront e he).mono _).mono _
        · obtain rfl := List.mem_singleton.1 he
          exact known_append_iff.2 (.inr rfl)
      have hrest := ih hstep hds' hfront' (by rw [hsplit]; simp)
      simpa using hrest

theorem samePlace_of_frame {d d' : Doclet} (h : frame d' = frame d) : SamePlace d d' :=
  ⟨eq_of_frame h, eq_of_frame h⟩

theorem samePlace_prepareAll (r : Registry) (ds : List Doclet) :
    List.Forall₂ SamePlace ds (prepareAll r ds).1 :=
  (forall₂_of_map_eq (frame_prepareAll r ds)).flip.imp fun _ _ => samePlace_of_frame

/-- When all doclets are registered, every name leads to the page that it lives on. -/
theorem settled_registered (hencoded : EncodedOnce ds) (hne : ∀ d ∈ ds, d.longname ≠ "") :
    Settled ds ((prepareAll Registry.new ds).1.foldl registerLink
      (prepareAll Registry.new ds).2)
      (uses ds) := by
  have hearly : Settled ds (prepareAll Registry.new ds).2 ([] ++ earlyUses ds) :=
    settled_prepareAll settled_new (show uses ds =
      [] ++ (earlyUses ds ++ laterUses ds) from rfl)
  exact settled_foldl_registerLink hencoded hearly (show ds = [] ++ ds from rfl)
    (samePlace_prepareAll Registry.new ds) hne (by simp) rfl

end Publication
end DocLinks
