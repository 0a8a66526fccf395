import DocLinks.Publication

/-!
# What publishing does not own in a doclet

Publishing rewrites texts and fills in the fields for display.  Everything else in a doclet
is its frame: every step of publishing leaves the frame of a doclet alone, apart from the
kind of a constant, which is a member from then on.

**Results.**
* `frame_prepare`, `frame_setShortpath`, `frame_expandDoclet`, `frame_sign`,
  `frame_complete`, `frame_attachTo`: each step of publishing keeps the frame.
* `kind_complete`: what becomes of the kind.
* `agrees_of_frame`: doclets with one frame agree field by field.
-/

namespace DocLinks
namespace Publication

/-- A record without what is said about it. -/
def withoutDescription (p : Param) : Param :=
  { p with description := none }

/-- An origin without the short form of its path. -/
def withoutShortpath (m : Meta) : Meta :=
  { m with shortpath := none }

/-- A doclet without its texts and without the fields for display.  Of lists of texts and of
examples only their lengths are left. -/
def frame (d : Doclet) : Doclet :=
  { d with
    description := none
    classdesc := none
    summary := none
    author := d.author.map fun _ => ""
    see := d.see.map fun _ => ""
    params := d.params.map withoutDescription
    returns := d.returns.map withoutDescription
    properties := d.properties.map withoutDescription
    exceptions := d.exceptions.map withoutDescription
    augments := d.augments.map fun _ => ""
    examples := d.examples.map fun _ => ⟨"", ""⟩
    origin := d.origin.map withoutShortpath
    signature := none
    attribs := none
    id := none
    ancestors := []
    modules := [] }

/-- What depends on the frame only is the same for doclets with one frame. -/
theorem eq_of_frame {β : Type} {f : Doclet → β} {d d' : Doclet} (h : frame d = frame d')
    (hf : ∀ d, f (frame d) = f d := by exact fun _ => rfl) : f d = f d' := by
  rw [← hf d, h, hf]

section Stages

theorem frame_tidy (d : Doclet) : frame (tidy d) = frame d := by
  simp only [frame, tidy, List.map_map, Function.comp_def]

theorem frame_linkFragments (url : String) (d : Doclet) :
    frame (linkFragments url d) = frame d := by
  simp only [frame, linkFragments, List.map_map, Function.comp_def]

theorem frame_prepare (r : Registry) (d : Doclet) : frame (prepare r d).1 = frame d := by
  unfold prepare
  dsimp only
  split
  · exact (frame_linkFragments _ _).trans (frame_tidy d)
  · exact frame_tidy d

theorem frame_prepareAll (r : Registry) (ds : List Doclet) :
    (prepareAll r ds).1.map frame = ds.map frame := by
  induction ds generalizing r with
  | nil => rfl
  | cons d ds ih => simp only [prepareAll, List.map_cons, frame_prepare, ih]

theorem frame_setShortpath (short : List (String × String)) (d : Doclet) :
    frame (setShortpath short d) = frame d := by
  unfold setShortpath
  split
  · rfl
  · split
    · rename_i origin shortpath horigin _
      simp [frame, horigin, withoutShortpath]
    · rfl

theorem withoutDescription_mapDescriptions (f : String → String) (ps : List Param) :
    (TextField.mapDescriptions f ps).map withoutDescription = ps.map withoutDescription := by
  simp [TextField.mapDescriptions, withoutDescription]

theorem frame_mapTexts (f : String → String) (d : Doclet) (field : TextField) :
    frame (field.mapTexts f d) = frame d := by
  cases field <;>
    simp only [frame, TextField.mapTexts, List.map_map, Function.comp_def,
      withoutDescription_mapDescriptions]

theorem frame_expandDoclet (e : Expander) (d : Doclet) :
    frame (e.expandDoclet d) = frame d := by
  have hfold : ∀ (fields : List TextField) (d : Doclet),
      frame (fields.foldl (fun d field =>
        field.mapTexts (e.expandIn d.longname field) d) d) =
        frame d := by
    intro fields
    induction fields with
    | nil => exact fun _ => rfl
    | cons field fields ih => exact fun d => (ih _).trans (frame_mapTexts _ d field)
  refine (hfold TextField.all _).trans ?_
  simp only [frame, List.map_map, Function.comp_def]

theorem frame_sign {r : Registry} {d d' : Doclet} (h : sign r d = .ok d') :
    frame d' = frame d := by
  unfold sign at h
  split at h
  · rw [Except.ok.inj h]
  · split at h
    · simp at h
    · dsimp only at h
      split at h
      · rw [← Except.ok.inj h]
        rfl
      · rw [← Except.ok.inj h]
        rfl

/-- Only the kind changes when the declared type is added. -/
theorem frame_complete (r : Registry) (ds : List Doclet) (d : Doclet) (kind : Kind) :
    frame { complete r ds d with kind := kind } = frame { d with kind := kind } := by
  unfold complete addDeclaredType
  split
  · rfl
  · rfl

theorem frame_attachTo (ds : List Doclet) (d : Doclet) (kind : Kind) :
    frame { Doclet.attachTo ds d with kind := kind } = frame { d with kind := kind } := by
  unfold Doclet.attachTo
  dsimp only
  split
  · rfl
  · rfl

/-- The kind that a published doclet has: constants are members. -/
def publishedKind (kind : Kind) : Kind :=
  if kind = .constant then .member else kind

theorem kind_complete (r : Registry) (ds : List Doclet) (d : Doclet) :
    (complete r ds d).kind = publishedKind d.kind := by
  unfold complete addDeclaredType publishedKind
  split
  · rename_i hvalue
    have hkind : d.kind = .member ∨ d.kind = .constant := by simpa [isValue] using hvalue
    rcases hkind with hkind | hkind
    · rw [hkind]
      rfl
    · rw [hkind]
      rfl
  · rename_i hvalue
    have hkind : d.kind ≠ .constant := by
      intro hconstant
      exact hvalue (by simp [isValue, hconstant])
    rw [if_neg hkind]

end Stages

section Fields

/-- A published doclet agrees with the doclet that it was made from in everything that
publishing does not own. -/
structure Agrees (d out : Doclet) : Prop where
  longname : out.longname = d.longname
  name : out.name = d.name
  kind : out.kind = publishedKind d.kind
  memberof : out.memberof = d.memberof
  scope : out.scope = d.scope
  variation : out.variation = d.variation
  access : out.access = d.access
  isAsync : out.isAsync = d.isAsync
  isGenerator : out.isGenerator = d.isGenerator
  isAbstract : out.isAbstract = d.isAbstract
  isReadonly : out.isReadonly = d.isReadonly
  isUndocumented : out.isUndocumented = d.isUndocumented
  isIgnored : out.isIgnored = d.isIgnored
  nullable : out.nullable = d.nullable
  type : out.type = d.type
  yields : out.yields = d.yields
  authors : out.author.length = d.author.length
  references : out.see.length = d.see.length
  examples : out.examples.length = d.examples.length
  params : out.params.map withoutDescription = d.params.map withoutDescription
  returns : out.returns.map withoutDescription = d.returns.map withoutDescription
  properties : out.properties.map withoutDescription = d.properties.map withoutDescription
  exceptions : out.exceptions.map withoutDescription = d.exceptions.map withoutDescription
  origin : out.origin.map withoutShortpath = d.origin.map withoutShortpath
  extra : out.extra = d.extra

theorem length_eq_of_map_const {α β : Type} {l m : List α} {b : β}
    (h : (l.map fun _ => b) = m.map fun _ => b) : l.length = m.length := by
  simpa using congrArg List.length h

/-- Doclets with one frame agree field by field. -/
theorem agrees_of_frame {d out : Doclet} (h : frame { out with kind := d.kind } = frame d)
    (hkind : out.kind = publishedKind d.kind) : Agrees d out := by
  have field {β : Type} (f : Doclet → β) :
      f (frame { out with kind := d.kind }) = f (frame d) :=
    congrArg f h
  exact {
    kind := hkind
    longname := field (·.longname)
    name := field (·.name)
    memberof := field (·.memberof)
    scope := field (·.scope)
    variation := field (·.variation)
    access := field (·.access)
    isAsync := field (·.isAsync)
    isGenerator := field (·.isGenerator)
    isAbstract := field (·.isAbstract)
    isReadonly := field (·.isReadonly)
    isUndocumented := field (·.isUndocumented)
    isIgnored := field (·.isIgnored)
    nullable := field (·.nullable)
    type := field (·.type)
    yields := field (·.yields)
    authors := length_eq_of_map_const (field (·.author))
    references := length_eq_of_map_const (field (·.see))
    examples := length_eq_of_map_const (field (·.examples))
    params := field (·.params)
    returns := field (·.returns)
    properties := field (·.properties)
    exceptions := field (·.exceptions)
    origin := field (·.origin)
    extra := field (·.extra) }

end Fields

end Publication
end DocLinks
