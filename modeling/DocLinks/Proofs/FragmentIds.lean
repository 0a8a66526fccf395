import DocLinks.Proofs.CharacterRuns
import DocLinks.Proofs.LinkSteps
import DocLinks.Proofs.ParentPages
import DocLinks.Proofs.PagesOfTheirOwn
import DocLinks.Proofs.RegistryRuns

/-!
# The id of a doclet and the fragment of its link

A link with a fragment is put together from a page and a fragment when it is made.  The page
is read back from it up to its first number sign, but the id of a doclet is what follows the
last one.  So the two fit together if the fragment has no number sign, and a fragment has one
if the doclet has wished for one.

**Invariant.**  `LinksMade`: every link with a fragment that is stored was made for a doclet
of the name that it is stored under, at some point of publishing.  What was known of the
fragments then is still known in the end.

**Results.**
* `idOf_spec`: the id is what follows the last number sign of a link.
* `exists_made`: the link with a fragment that is stored under a long name was made for it.
* `id_eq_fragment_iff`: when a link is its page and the id, and that the links of different
  doclets differ.
* `ids_not_unique`: two doclets on one page with the same id.
-/

namespace DocLinks

namespace Filename

/-- A fragment has a number sign if one was wished for. -/
theorem Allocator.hash_mem_claimAnchor_iff (a : Allocator) (file wish : String) :
    '#' ∈ (a.claimAnchor file wish).1.toList ↔ '#' ∈ wish.toList := by
  have hblank : Text.isBlank '#' = false := by decide
  rw [claimAnchor, String.toList_ofList, pad]
  rw [List.mem_append, List.mem_filter, List.mem_replicate]
  simp [hblank]

end Filename

namespace Registry

variable {r : Registry} {d : Doclet} {url : String}

/-- A link with a fragment is made of a file and of the fragment that the long name has from
then on. -/
theorem exists_fragment_of_hash (h : '#' ∈ (r.createLink d).1.toList) :
    ∃ file fragment, '#' ∉ file.toList ∧ fragment ≠ "" ∧
      (r.createLink d).2.fragments.lookup d.longname = some fragment ∧
      (r.createLink d).1 = urlOf file fragment := by
  have hfile := r.hash_not_mem_pageFor (placement d).owner
  unfold createLink at h ⊢
  dsimp only at h ⊢
  have hne := (hash_mem_urlOf_iff hfile).1 h
  split at hne
  · rename_i hpart
    rw [if_pos hpart]
    exact ⟨_, _, hfile, hne, (givesFragment_fragmentFor _ _ d).lookup_of_ne hne, rfl⟩
  · exact absurd rfl hne

/-- If what follows the last number sign of a link is known, the link is its page with that
behind it exactly if its fragment has no number sign. -/
theorem urlOf_eq_iff {file fragment : String} {front id : List Char}
    (hfile : '#' ∉ file.toList)
    (hne : fragment ≠ "") (hsplit : (urlOf file fragment).toList = front ++ '#' :: id)
    (hid : '#' ∉ id) :
    urlOf file fragment = pageOf (urlOf file fragment) ++ "#" ++ String.ofList id ↔
      '#' ∉ fragment.toList := by
  have hurl : (urlOf file fragment).toList =
      Percent.encode file.toList ++ '#' :: Percent.encode fragment.toList := by
    rw [toList_urlOf, if_neg hne, Percent.encode_append]
    exact congrArg _ (congrArg (· ++ Percent.encode fragment.toList) Percent.encodeChar_hash)
  have hpage : (pageOf (urlOf file fragment) ++ "#" ++ String.ofList id).toList =
      Percent.encode file.toList ++ '#' :: id := by
    simp [String.toList_append, pageOf_urlOf hfile]
  rw [← String.toList_inj, hpage]
  rw [hurl, ← Percent.mem_encode_hash_iff]
  constructor
  · intro heq
    rw [(List.cons.inj (List.append_cancel_left heq)).2]
    exact hid
  · intro hfragment
    rw [hurl] at hsplit
    rw [(append_cons_inj_of_not_mem hfragment hid hsplit).2]

end Registry

namespace Publication

open Registry (pageOf fragmentWish)

section Ids

variable {s : PublishSettings} {ds : List Doclet}
  {tutorials : List Tutorial} {p : Publication}
  {out : Doclet}

/-- The id of a doclet whose link has a fragment is what follows the last number sign. -/
theorem idOf_spec {url : String} (d : Doclet) (h : '#' ∈ url.toList) :
    ∃ front, url.toList = front ++ '#' :: (idOf url d).toList ∧
    '#' ∉ (idOf url d).toList := by
  unfold idOf Text.cutAtLast
  cases hcut : Text.cutAtFirst (· == '#') url.toList.reverse with
  | none =>
      have hnone := Text.cutAtFirst_eq_none hcut '#' (List.mem_reverse.2 h)
      exact absurd hnone (by decide)
  | some parts =>
      obtain ⟨rest, before⟩ := parts
      obtain ⟨c, hc, hreverse, hfree⟩ := Text.cutAtFirst_eq hcut
      obtain rfl : c = '#' := by simpa using hc
      refine ⟨before.reverse, ?_, fun hmem => ?_⟩
      · have hsplit := congrArg List.reverse hreverse
        simpa using hsplit
      · have hmem : '#' ∈ rest := by simpa using hmem
        exact absurd (hfree '#' hmem) (by decide)

theorem id_complete (r : Registry) (ds : List Doclet) (d : Doclet) :
    (complete r ds d).id = d.id := by
  unfold complete addDeclaredType
  split <;> rfl

theorem longname_complete (r : Registry) (ds : List Doclet) (d : Doclet) :
    (complete r ds d).longname = d.longname := by
  unfold complete addDeclaredType
  split <;> rfl

theorem id_attachTo (ds : List Doclet) (d : Doclet) : (Doclet.attachTo ds d).id = d.id := by
  unfold Doclet.attachTo
  dsimp only
  split <;> rfl

theorem exists_id_of_sign {r : Registry} {d d' : Doclet} (h : sign r d = .ok d')
    (hne : d.longname ≠ "") :
    ∃ url, r.resolve? d.longname = some url ∧ d'.id = some (idOf url d) := by
  unfold sign at h
  rw [if_neg (by simpa using hne)] at h
  split at h
  · simp at h
  · rename_i url hurl
    refine ⟨url, hurl, ?_⟩
    dsimp only at h
    split at h
    · rw [← Except.ok.inj h]
      rfl
    · rw [← Except.ok.inj h]

/-- A doclet that is published has its id from the link that is stored under its long
name. -/
theorem exists_id_of_mem_doclets (h : run s ds tutorials = .ok p) (hout : out ∈ p.doclets)
    (hne : out.longname ≠ "") :
    ∃ url d, p.registry.resolve? out.longname = some url ∧ out.id = some (idOf url d) := by
  obtain ⟨signed, hsigned, rfl⟩ := run_eq_ok_iff.1 h
  obtain ⟨e, he, rfl⟩ := List.mem_map.1 hout
  obtain ⟨d', hd', rfl⟩ := List.mem_map.1 he
  obtain ⟨d, -, hsign⟩ := exists_of_forall₂ (mapM_eq_ok_iff.1 hsigned).flip hd'
  have hname : d'.longname = d.longname := eq_of_frame (frame_sign hsign)
  rw [Doclet.longname_attachTo, longname_complete, hname] at hne ⊢
  obtain ⟨url, hurl, hid⟩ := exists_id_of_sign hsign hne
  refine ⟨url, d, Registry.resolve?_of_isPrefix
    (prefix_final_of_linked s ds tutorials) hurl, ?_⟩
  rw [id_attachTo, id_complete, hid]

end Ids

section Making

variable {ds : List Doclet} {r r' : Registry} {d : Doclet}

/-- Every link with a fragment was made for a doclet of the name under which it is stored. -/
def LinksMade (ds : List Doclet) (r : Registry) : Prop :=
  ∀ e ∈ r.entries, '#' ∈ e.url.toList → ∃ d ∈ ds, ∃ r', d.longname = e.name ∧
    (r'.createLink d).1 = e.url ∧ Reaches ds Registry.new r' ∧ (r'.createLink d).2.Extends r

theorem linksMade_new : LinksMade ds Registry.new := by
  intro e he hhash
  obtain rfl := List.mem_singleton.1 he
  exact absurd hhash (Filename.Allocator.hash_not_mem_claimFile _ _)

theorem LinksMade.of_extends (h : LinksMade ds r) (hext : r.Extends r')
    (hentries : ∀ e ∈ r'.entries, '#' ∈ e.url.toList → e ∈ r.entries) : LinksMade ds r' := by
  intro e he hhash
  obtain ⟨d, hd, r₀, hname, hurl, hreach, hlater⟩ := h e (hentries e he hhash) hhash
  exact ⟨d, hd, r₀, hname, hurl, hreach, hlater.trans hext⟩

theorem LinksMade.createLink (h : LinksMade ds r) (d : Doclet) :
    LinksMade ds (r.createLink d).2 := by
  refine h.of_extends (r.extends_createLink d) fun e he hhash => ?_
  rw [r.entries_createLink d] at he
  rcases r.entries_pageFor (Registry.placement d).owner with ⟨-, hentries⟩ | ⟨-, k, hentries⟩
  · rwa [hentries] at he
  · rw [hentries] at he
    rcases List.mem_append.1 he with he | he
    · exact he
    · obtain rfl := List.mem_singleton.1 he
      exact absurd hhash (Registry.hash_not_mem_pageFile _ k)

theorem LinksMade.registerLink (h : LinksMade ds r)
    (hreach : Reaches ds Registry.new r) (hd : d ∈ ds) :
    LinksMade ds (registerLink r d) := by
  unfold Publication.registerLink
  split
  · exact h
  · have hext := (r.createLink d).2.extends_add ⟨d.longname, (r.createLink d).1, false⟩
    intro e he hhash
    rw [Registry.entries_register] at he
    have hcases : e ∈ (r.createLink d).2.entries ∨
        e = ⟨d.longname, (r.createLink d).1, false⟩ := by
      split at he
      · exact .inl he
      · exact (List.mem_append.1 he).imp_right List.mem_singleton.1
    rcases hcases with he | rfl
    · obtain ⟨d', hd', r₀, hname, hurl, hmade, hlater⟩ := h.createLink d e he hhash
      exact ⟨d', hd', r₀, hname, hurl, hmade, hlater.trans hext⟩
    · exact ⟨d, hd, r, rfl, rfl, hreach, hext⟩

/-- The invariant holds when all doclets have been given their links. -/
theorem linksMade_registered {s : PublishSettings} (hlinks : s.linkMap = [])
    (ds : List Doclet) :
    LinksMade (kept ds) (registered s ds) := by
  have hearly : LinksMade (kept ds)
      ((early (kept ds)).foldl (fun r d => (r.createLink d).2) Registry.new) :=
    List.foldlRecOn (early (kept ds)) _ linksMade_new fun r h d _ => h.createLink d
  rw [registered_eq, initial_eq_new hlinks]
  -- a link is stored as it was made, so the steps up to there are part of what is preserved
  refine (List.foldlRecOn (motive := fun r => Reaches (kept ds) Registry.new r ∧
    LinksMade (kept ds) r)
    (kept ds) registerLink ⟨?_, hearly⟩ fun r h d hd => ?_).2
  · exact Reaches.refl.early List.filter_sublist.subset
  · exact ⟨h.1.registerLink hd, h.2.registerLink h.1 hd⟩

/-- A link with a fragment that is stored under the long name of a doclet was made for that
name. -/
theorem exists_made {s : PublishSettings} (hlinks : s.linkMap = []) (hd : d ∈ kept ds)
    (hne : d.longname ≠ "") (tutorials : List Tutorial) {url : String}
    (hurl : (final s ds tutorials).resolve? d.longname = some url)
    (hhash : '#' ∈ url.toList) :
    ∃ d' ∈ kept ds, ∃ r, d'.longname = d.longname ∧ (r.createLink d').1 = url ∧
      Reaches (kept ds) Registry.new r ∧
      (r.createLink d').2.Extends (final s ds tutorials) := by
  obtain ⟨url', hurl'⟩ := exists_resolve?_registered s ds hd hne
  rw [Registry.resolve?_of_isPrefix (prefix_final s ds tutorials) hurl'] at hurl
  obtain rfl := Option.some.inj hurl
  obtain ⟨e, he, rfl⟩ := Option.map_eq_some_iff.1 hurl'
  have hname : e.name = d.longname := by simpa using List.find?_some he
  obtain ⟨d', hd', r, hname', hmade, hreach, hlater⟩ :=
    linksMade_registered hlinks ds e (List.mem_of_find?_eq_some he) hhash
  have hfinal : Reaches (kept ds) (registered s ds) (final s ds tutorials) :=
    Reaches.refl.final tutorials
  exact ⟨d', hd', r, hname'.trans hname, hmade, hreach, hlater.trans hfinal.extends⟩

end Making

section Wishes

variable {s : PublishSettings} {ds : List Doclet}
  {tutorials : List Tutorial} {p : Publication}

theorem fragmentLead_publishedKind (kind : Kind) :
    (publishedKind kind).fragmentLead = kind.fragmentLead := by
  unfold publishedKind
  split
  · rename_i hkind
    rw [hkind]
    rfl
  · rfl

/-- Publishing changes neither the long name of a doclet nor the fragment that it wishes
for. -/
theorem wishes_doclets (h : run s ds tutorials = .ok p) :
    List.Forall₂ (fun d out => out.longname = d.longname ∧
      fragmentWish out = fragmentWish d) (kept ds)
      p.doclets := by
  refine (frame_doclets h).imp fun d out ⟨hframe, hkind⟩ => ?_
  have hname : out.longname = d.longname := congrArg (·.longname) hframe
  have hwish : fragmentWish { out with kind := d.kind } = fragmentWish d :=
    eq_of_frame hframe
  refine ⟨hname, ?_⟩
  rw [← hwish, fragmentWish, fragmentWish]
  rw [hkind, fragmentLead_publishedKind]

/-- The fragment of a long name has a number sign exactly if a doclet of that name wishes for
one. -/
theorem exists_hash_mem_iff (s : PublishSettings) (ds : List Doclet)
    (tutorials : List Tutorial) :
    ∀ longname fragment, (final s ds tutorials).fragments.lookup longname = some fragment →
      ∃ d ∈ kept ds, d.longname = longname ∧
        ('#' ∈ fragment.toList ↔ '#' ∈ (fragmentWish d).toList) := by
  refine (reaches_final_of_new s ds tutorials).fragments_induction
    (fun longname fragment hnew => ?_)
    fun d hd a file _ => ?_
  · simp [Registry.new] at hnew
  · exact ⟨d, hd, rfl, a.hash_mem_claimAnchor_iff file (fragmentWish d)⟩

end Wishes

section Parents

variable {s : PublishSettings} {ds : List Doclet}
  {tutorials : List Tutorial} {r r' : Registry}
  {parent : String → Option String}

/-- Publishing keeps the invariant of registries if doclets of one long name have one
parent. -/
theorem Reaches.kept (h : Reaches ds r r')
    (hparent : ∀ d ∈ ds, d.memberof = parent d.longname)
    (hr : Registry.Kept parent r) : Registry.Kept parent r' := by
  induction h with
  | refl => exact hr
  | add e _ ih => exact ih.of_extends (Registry.extends_add _ e) (Registry.fragments_add _ e)
  | claimFile name _ ih => exact ih.of_extends (Registry.extends_claimFile _ name) rfl
  | addTutorial name title _ ih =>
      exact ih.of_extends (Registry.extends_addTutorial _ name title)
        (Registry.fragments_addTutorial _ name title)
  | createLink hd _ ih => exact (Registry.kept_createLink ih _ (hparent _ hd)).1

/-- If the long names of doclets differ from each other, so do the links with fragments that
are stored under them. -/
theorem stored_links_ne (hlinks : s.linkMap = [])
    (hdistinct : ((kept ds).map (·.longname)).Nodup)
    {d e : Doclet} (hd : d ∈ kept ds) (he : e ∈ kept ds) (hne : d.longname ≠ "")
    (hne' : e.longname ≠ "")
    (hdiffer : d.longname ≠ e.longname) {url url' : String}
    (hurl : (final s ds tutorials).resolve? d.longname = some url)
    (hurl' : (final s ds tutorials).resolve? e.longname = some url')
    (hhash : '#' ∈ url.toList) (hhash' : '#' ∈ url'.toList) : url ≠ url' := by
  have hparent : ∀ d ∈ kept ds, d.memberof = Registry.parentIn (kept ds) d.longname := by
    intro d hd
    refine (Registry.parentIn_eq hd fun e he hname => ?_).symm
    rw [List.inj_on_of_nodup_map hdistinct he hd hname]
  have hlinked : ∀ {d : Doclet} {url : String}, d ∈ kept ds → d.longname ≠ "" →
      (final s ds tutorials).resolve? d.longname = some url → '#' ∈ url.toList →
      Registry.Linked (Registry.parentIn (kept ds)) (final s ds tutorials) (d, url) := by
    intro d url hd hne hurl hhash
    obtain ⟨d', hd', r, hname, rfl, hreach, hlater⟩ :=
      exists_made hlinks hd hne tutorials hurl hhash
    obtain rfl : d' = d := List.inj_on_of_nodup_map hdistinct hd' hd hname
    have hkept := hreach.kept hparent Registry.kept_new
    exact (Registry.kept_createLink hkept d' (hparent d' hd')).2.of_extends hlater
  have hkept := (reaches_final_of_new s ds tutorials).kept hparent Registry.kept_new
  exact hkept.links_ne (hlinked hd hne hurl hhash)
    (hlinked he hne' hurl' hhash') hhash hhash' hdiffer

end Parents

section Publishing

variable {s : PublishSettings} {ds : List Doclet}
  {tutorials : List Tutorial} {p : Publication}

/-- A link with a fragment is stored under the long name of a published doclet. -/
structure LinksToPart (p : Publication) (out : Doclet) (url : String) : Prop where
  mem : out ∈ p.doclets
  named : out.longname ≠ ""
  stored : p.registry.resolve? out.longname = some url
  hash : '#' ∈ url.toList

/-- A link is its page and then the given id. -/
def IsPageAndId (url id : String) : Prop :=
  url = pageOf url ++ "#" ++ id

/-- A link with a fragment is its page and the id of its doclet exactly if no number sign was
wished for. -/
theorem LinksToPart.exists_id (hlinks : s.linkMap = [])
    (hrun : run s ds tutorials = .ok p) {out : Doclet}
    {url : String} (h : LinksToPart p out url) :
    ∃ id, out.id = some id ∧ (∃ front, url = front ++ "#" ++ id) ∧ '#' ∉ id.toList ∧
      ∃ d ∈ p.doclets, d.longname = out.longname ∧
        (IsPageAndId url id ↔ '#' ∉ (fragmentWish d).toList) := by
  have hregistry := registry_of_run hrun
  obtain ⟨d, hd, hname⟩ := exists_kept_of_mem_doclets hrun h.mem
  have hstored := h.stored
  have hne := h.named
  rw [hregistry, ← hname] at hstored
  rw [← hname] at hne
  obtain ⟨d', -, r, hname', rfl, -, hlater⟩ :=
    exists_made hlinks hd hne tutorials hstored h.hash
  obtain ⟨file, fragment, hfile, hfragment, hlookup, hurl⟩ :=
    Registry.exists_fragment_of_hash h.hash
  obtain ⟨e, he, hename, hwish⟩ :=
    exists_hash_mem_iff s ds tutorials _ _ (hlater.fragment hlookup)
  obtain ⟨out', hout', hsame, hsameWish⟩ := exists_of_forall₂ (wishes_doclets hrun) he
  obtain ⟨url, d₀, hresolve, hid⟩ := exists_id_of_mem_doclets hrun h.mem h.named
  rw [h.stored] at hresolve
  obtain rfl := Option.some.inj hresolve
  obtain ⟨front, hsplit, hfree⟩ := idOf_spec d₀ h.hash
  refine ⟨_, hid, ⟨String.ofList front, ?_⟩, hfree, out', hout', ?_, ?_⟩
  · rw [← String.toList_inj, hsplit]
    simp
  · rw [hsame, hename]
    rw [hname', hname]
  · rw [hurl] at hsplit hfree ⊢
    rw [IsPageAndId, hsameWish, ← hwish]
    rw [← Registry.urlOf_eq_iff hfile hfragment hsplit hfree, String.ofList_toList]

/-- Publishing succeeds, and every doclet with a long name has a link, if nothing is
documented elsewhere. The id of a doclet whose link has a fragment is what follows the last
number sign of the link; the link is its page and then the id exactly if the fragment that
its long name has wished for has no number sign.  If long names differ, such links of
different doclets differ, so on one page the fragments do; and the ids do unless a number
sign has been wished for. -/
theorem id_eq_fragment_iff (s : PublishSettings) (ds : List Doclet)
    (tutorials : List Tutorial)
    (hlinks : s.linkMap = []) :
    ∃ p, run s ds tutorials = .ok p ∧
      (∀ out ∈ p.doclets, out.longname ≠ "" → ∃ url,
        p.registry.resolve? out.longname = some url) ∧
      (∀ out url, LinksToPart p out url →
        ∃ id, out.id = some id ∧ (∃ front, url = front ++ "#" ++ id) ∧ '#' ∉ id.toList ∧
          ∃ d ∈ p.doclets, d.longname = out.longname ∧
            (IsPageAndId url id ↔ '#' ∉ (fragmentWish d).toList)) ∧
      (((kept ds).map (·.longname)).Nodup → p.doclets.Pairwise fun out out' => ∀ url url',
        LinksToPart p out url → LinksToPart p out' url' → url ≠ url' ∧
          (pageOf url = pageOf url' → '#' ∉ (fragmentWish out).toList →
            '#' ∉ (fragmentWish out').toList → out.id ≠ out'.id)) := by
  obtain ⟨p, -, hrun, -⟩ := exists_recorded s ds tutorials
  refine ⟨p, hrun, fun out hout hne => ?_, fun out url h => h.exists_id hlinks hrun,
    fun hdistinct => ?_⟩
  · obtain ⟨url, -, hurl, -⟩ := exists_id_of_mem_doclets hrun hout hne
    exact ⟨url, hurl⟩
  have hnames : p.doclets.map (·.longname) = (kept ds).map (·.longname) := by
    rw [← List.forall₂_eq_eq_eq, List.forall₂_map_left_iff, List.forall₂_map_right_iff]
    exact (wishes_doclets hrun).flip.imp fun _ _ h => h.1
  have hdiffer : p.doclets.Pairwise fun out out' => out.longname ≠ out'.longname := by
    rw [← List.pairwise_map]
    exact hnames ▸ hdistinct
  refine hdiffer.imp fun {out out'} hne url url' h h' => ?_
  have hurls : url ≠ url' := by
    obtain ⟨d, hd, hname⟩ := exists_kept_of_mem_doclets hrun h.mem
    obtain ⟨d', hd', hname'⟩ := exists_kept_of_mem_doclets hrun h'.mem
    have hstored := h.stored
    have hstored' := h'.stored
    rw [registry_of_run hrun] at hstored hstored'
    exact stored_links_ne hlinks hdistinct hd hd' (hname ▸ h.named) (hname' ▸ h'.named)
      (by rwa [hname, hname']) (hname ▸ hstored) (hname' ▸ hstored') h.hash h'.hash
  refine ⟨hurls, fun hpages hwish hwish' hids => hurls ?_⟩
  have htold : ∀ {out : Doclet} {url : String}, LinksToPart p out url →
      '#' ∉ (fragmentWish out).toList → ∃ id, out.id = some id ∧ IsPageAndId url id := by
    intro out url h hwish
    obtain ⟨id, hid, -, -, d, hd, hname, hiff⟩ := h.exists_id hlinks hrun
    obtain rfl : d = out := List.inj_on_of_nodup_map (hnames ▸ hdistinct) hd h.mem hname
    exact ⟨id, hid, hiff.2 hwish⟩
  obtain ⟨id, hid, hurl⟩ := htold h hwish
  obtain ⟨id', hid', hurl'⟩ := htold h' hwish'
  rw [hid, hid'] at hids
  rw [hurl, hurl']
  rw [hpages, Option.some.inj hids]

/-- The link of a method is the page of its class and the id of the method. -/
theorem ids_of_class_with_method :
    ({} : PublishSettings).linkMap = [] ∧ ∃ p, run {} classWithMethod [] = .ok p ∧
      ∀ out url, LinksToPart p out url → ∃ id, out.id = some id ∧ IsPageAndId url id := by
  refine ⟨rfl, ?_⟩
  obtain ⟨p, hrun, -, hids, -⟩ := id_eq_fragment_iff {} classWithMethod [] rfl
  have hwish : ∀ d ∈ kept classWithMethod, '#' ∉ (fragmentWish d).toList := by
    rw [kept_classWithMethod]
    decide +kernel
  refine ⟨p, hrun, fun out url h => ?_⟩
  obtain ⟨id, hid, -, -, out', hout', -, hiff⟩ := hids out url h
  obtain ⟨d, hd, -, hsame⟩ := exists_of_forall₂ (wishes_doclets hrun).flip hout'
  exact ⟨id, hid, hiff.2 (hsame ▸ hwish d hd)⟩

/-- A class with a private and a public method of one name. -/
def privateMethod : List Doclet :=
  [symbol "A" "A" .classDecl none,
    { symbol "A.#f" "#f" .function (some "A") with scope := some .staticMember },
    { symbol "A.f" "f" .function (some "A") with scope := some .staticMember }]

/-- The long names of published doclets with their links and their ids. -/
def idTable (p : Publication) : List (String × Option String × Option String) :=
  p.doclets.map fun out => (out.longname, p.registry.resolve? out.longname, out.id)

theorem exists_of_mem_idTable {name url id : String}
    (h : (name, some url, some id) ∈ idTable p)
    (hne : name ≠ "") (hhash : '#' ∈ url.toList) :
    ∃ out, LinksToPart p out url ∧ out.longname = name ∧ out.id = some id := by
  obtain ⟨out, hout, heq⟩ := List.mem_map.1 h
  simp only [Prod.mk.injEq] at heq
  obtain ⟨rfl, hurl, hid⟩ := heq
  exact ⟨out, ⟨hout, hne, hurl, hhash⟩, rfl, hid⟩

theorem publishes_privateMethod :
    publishes privateMethod (fun p => idTable p == [("A", some "A.html", some "A"),
      ("A.#f", some "A.html##f", some "f"), ("A.f", some "A.html#f", some "f")]) = true := by
  have hsort : Doclet.sortByLongname (Doclet.prune privateMethod) = privateMethod :=
    kept_eq_of_sorted rfl (by decide +kernel)
  unfold publishes run
  rw [hsort]
  decide +kernel

/-- A private method has the id of the public one, which is not the fragment of its link. -/
theorem ids_not_unique :
    ((kept privateMethod).map (·.longname)).Nodup ∧ ∃ p, run {} privateMethod [] = .ok p ∧
      ∃ out out', LinksToPart p out "A.html##f" ∧ LinksToPart p out' "A.html#f" ∧
        out.longname ≠ out'.longname ∧ pageOf "A.html##f" = pageOf "A.html#f" ∧
        out.id = some "f" ∧
        out'.id = some "f" ∧ ¬ IsPageAndId "A.html##f" "f" := by
  have hkept : kept privateMethod = privateMethod :=
    kept_eq_of_sorted rfl (by decide +kernel)
  obtain ⟨p, hrun, htable⟩ := exists_of_publishes publishes_privateMethod
  rw [beq_iff_eq] at htable
  have hprivate : ("A.#f", some "A.html##f", some "f") ∈ idTable p := by
    rw [htable]
    simp
  have hpublic : ("A.f", some "A.html#f", some "f") ∈ idTable p := by
    rw [htable]
    simp
  obtain ⟨out, hout, hname, hid⟩ := exists_of_mem_idTable hprivate (by decide) (by decide)
  obtain ⟨out', hout', hname', hid'⟩ := exists_of_mem_idTable hpublic (by decide) (by decide)
  refine ⟨?_, p, hrun, out, out', hout, hout', ?_, by decide +kernel, hid, hid', ?_⟩
  · rw [hkept]
    decide +kernel
  · rw [hname, hname']
    decide
  · unfold IsPageAndId
    decide +kernel

end Publishing

end Publication
end DocLinks
