import DocLinks.Proofs.GeneratedPages

/-!
# What a link depends on

The link of a doclet depends on six of its fields only.  Publishing changes many fields of a
doclet, but of these six only the kind, which turns from that of a constant into that of a
member.

**Results.**
* `createLink_essence`: the other fields do not matter for a link.
* `registered_eq`: the links that are made, in their order.
* `frame_doclets`, `essence_doclets`: what is published has the frames and the links of what
  was put in.
-/

namespace DocLinks
namespace Publication

/-- A doclet of which only what its link depends on is known. -/
def essence (d : Doclet) : Doclet :=
  { longname := d.longname, name := d.name, kind := d.kind, memberof := d.memberof,
    scope := d.scope, variation := d.variation }

section Links

theorem createLink_essence (r : Registry) (d : Doclet) :
    r.createLink (essence d) = r.createLink d :=
  rfl

variable {d d' : Doclet}

theorem createLink_congr (h : essence d = essence d') (r : Registry) :
    r.createLink d = r.createLink d' := by
  rw [← createLink_essence r d, h, createLink_essence]

theorem longname_congr (h : essence d = essence d') : d.longname = d'.longname := by
  have hlongname := congrArg Doclet.longname h
  exact hlongname

/-- What a link depends on is a part of the frame. -/
theorem essence_of_frame (h : frame d = frame d') : essence d = essence d' :=
  eq_of_frame h

theorem map_essence_of_frame {l l' : List Doclet} (h : l.map frame = l'.map frame) :
    l.map essence = l'.map essence := by
  have hmap : ∀ l : List Doclet, (l.map frame).map essence = l.map essence :=
    fun l => List.map_map
  rw [← hmap l, h, hmap]

end Links

section Run

variable (s : PublishSettings) (ds : List Doclet) (tutorials : List Tutorial)

/-- The doclets whose links are made before any doclet is registered. -/
def early (ds : List Doclet) : List Doclet :=
  ds.filter fun d => d.see.any isHashLink

theorem prepareAll_snd (r : Registry) (ds : List Doclet) :
    (prepareAll r ds).2 = (early ds).foldl (fun r d => (r.createLink d).2) r := by
  induction ds generalizing r with
  | nil => rfl
  | cons d ds ih =>
      have hcons : (prepareAll r (d :: ds)).2 = (prepareAll (prepare r d).2 ds).2 := rfl
      rw [hcons, ih, registry_prepare]
      rw [early, early, List.filter_cons]
      split
      · rfl
      · rfl

theorem foldl_registerLink_congr {l l' : List Doclet} (h : l.map essence = l'.map essence)
    (r : Registry) : l.foldl registerLink r = l'.foldl registerLink r := by
  have hmap : ∀ l : List Doclet, (l.map essence).foldl registerLink r =
      l.foldl registerLink r :=
    fun l => List.foldl_map
  rw [← hmap l, h, hmap]

/-- First the links of some doclets are made, and then all doclets are registered. -/
theorem registered_eq : registered s ds =
    (kept ds).foldl registerLink
      ((early (kept ds)).foldl (fun r d => (r.createLink d).2) (initial s)) := by
  rw [registered, foldl_registerLink_congr (map_essence_of_frame (frame_prepareAll _ _))]
  rw [prepareAll_snd]

variable {s ds tutorials}

theorem registry_of_run {p : Publication} (h : run s ds tutorials = .ok p) :
    p.registry = final s ds tutorials := by
  obtain ⟨signed, -, rfl⟩ := run_eq_ok_iff.1 h
  rfl

/-- The categories are those of the doclets that are published. -/
theorem members_of_run {p : Publication} (h : run s ds tutorials = .ok p) :
    p.members = Members.categorize p.doclets tutorials := by
  obtain ⟨signed, -, rfl⟩ := run_eq_ok_iff.1 h
  exact (Doclet.categorize_attachExports _ tutorials).symm

/-- A doclet that is published, taken with the kind that it had before, has the frame that it
had. -/
theorem frame_doclets {p : Publication} (h : run s ds tutorials = .ok p) :
    List.Forall₂ (fun d out => frame { out with kind := d.kind } = frame d ∧
      out.kind = publishedKind d.kind) (kept ds) p.doclets := by
  obtain ⟨signed, hsigned, rfl⟩ := run_eq_ok_iff.1 h
  refine List.forall₂_map_right_iff.2 (List.forall₂_map_right_iff.2 ?_)
  refine forall₂_comp (fun d e e' he hsign => ⟨?_, ?_⟩) (frame_expanded s ds)
    (mapM_eq_ok_iff.1 hsigned)
  · have hsame : frame e' = frame d := (frame_sign hsign).trans he
    rw [frame_attachTo, frame_complete]
    exact congrArg (fun x => { x with kind := d.kind }) hsame
  · have hkind : e'.kind = d.kind := eq_of_frame ((frame_sign hsign).trans he)
    rw [Doclet.kind_attachTo, kind_complete, hkind]

/-- A doclet that is published has the long name of one that is kept. -/
theorem exists_kept_of_mem_doclets {p : Publication}
    (h : run s ds tutorials = .ok p) {out : Doclet}
    (hout : out ∈ p.doclets) : ∃ d ∈ kept ds, d.longname = out.longname := by
  obtain ⟨d, hd, hframe, -⟩ := exists_of_forall₂ (frame_doclets h).flip hout
  exact ⟨d, hd, (congrArg (·.longname) hframe).symm⟩

/-- A doclet that is published, taken with the kind that it had before, has the link that it
had. -/
theorem essence_doclets {p : Publication} (h : run s ds tutorials = .ok p) :
    List.Forall₂ (fun d out => essence { out with kind := d.kind } = essence d)
      (kept ds) p.doclets :=
  (frame_doclets h).imp fun _ _ hframe => essence_of_frame hframe.1

end Run

end Publication
end DocLinks
