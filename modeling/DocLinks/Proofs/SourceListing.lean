import DocLinks.Proofs.SharedDirectories
import DocLinks.Proofs.ShortNames

/-!
# The source files that are listed

The paths of all sources are collected from the doclets, each once.  They are shortened
together, the short forms are stored in the doclets, and every path is listed with its short
form and a file.  Doclets without a long name are anonymous: their paths are listed too, but
they keep the origin that they came with.

**Invariant.**  No step of publishing changes the origin of a doclet, except that the short
form of its path is stored in it.

**Results.**
* `origin_setShortpath`: what is stored in a doclet.
* `origin_prepare`, `origin_expandDoclet`, `origin_sign`, `origin_complete`,
  `origin_attachTo`: every other step keeps the origin, so `origin_doclets` tells what is
  published.
* `map_registerSources`: what is listed are the paths and their short forms.
* `sources_listed`: doclets and the list of the sources agree.
* `sources_not_agreeing`: an anonymous doclet has no short path, and two files may differ in
  case only.
-/

namespace DocLinks
namespace Publication

open Filename (Apart)

section Origins

theorem sourcePath_congr {d d' : Doclet} (h : d.origin = d'.origin) :
    d.sourcePath = d'.sourcePath := by
  unfold Doclet.sourcePath
  rw [h]

/-- An origin with the short form of a path, if there is one. -/
def withShortpath (shortpath : Option String) (m : Meta) : Meta :=
  { m with shortpath := shortpath.or m.shortpath }

/-- The short form of its path is stored in the origin of a doclet that is not anonymous. -/
theorem origin_setShortpath (short : List (String × String)) (d : Doclet) :
    (setShortpath short d).origin =
      if d.longname = "" then d.origin
      else d.origin.map
        (withShortpath (d.sourcePath.bind fun path => short.lookup path)) := by
  unfold setShortpath
  by_cases hname : d.longname = ""
  · rw [if_pos hname, if_pos (by simpa using hname)]
  · rw [if_neg hname, if_neg (by simpa using hname)]
    cases horigin : d.origin with
    | none => exact horigin
    | some origin =>
        cases hshort : d.sourcePath.bind fun path => short.lookup path with
        | none => exact horigin
        | some shortpath => rfl

theorem origin_setShortpath_congr (short : List (String × String)) {d d' : Doclet}
    (hname : d.longname = d'.longname) (horigin : d.origin = d'.origin) :
    (setShortpath short d).origin = (setShortpath short d').origin := by
  rw [origin_setShortpath, origin_setShortpath, hname]
  rw [horigin, sourcePath_congr horigin]

end Origins

section Stages

theorem origin_prepare (r : Registry) (d : Doclet) : (prepare r d).1.origin = d.origin := by
  unfold prepare
  dsimp only
  split <;> rfl

theorem origin_expandDoclet (e : Expander) (d : Doclet) :
    (e.expandDoclet d).origin = d.origin := by
  have hfield : ∀ (f : String → String) (d : Doclet) (field : TextField),
      (field.mapTexts f d).origin = d.origin := by
    intro f d field
    cases field <;> rfl
  have hfold : ∀ (fields : List TextField) (d : Doclet),
      (fields.foldl (fun d field => field.mapTexts
        (e.expandIn d.longname field) d) d).origin =
        d.origin := by
    intro fields
    induction fields with
    | nil => exact fun _ => rfl
    | cons field fields ih => exact fun d => (ih _).trans (hfield _ d field)
  exact hfold TextField.all d

theorem origin_sign {r : Registry} {d d' : Doclet} (h : sign r d = .ok d') :
    d'.origin = d.origin := by
  unfold sign at h
  split at h
  · rw [Except.ok.inj h]
  · split at h
    · simp at h
    · dsimp only at h
      split at h
      · rw [← Except.ok.inj h]
        rfl
      · rw [← Except.ok.inj h]

theorem origin_complete (r : Registry) (ds : List Doclet) (d : Doclet) :
    (complete r ds d).origin = d.origin := by
  unfold complete addDeclaredType
  split <;> rfl

theorem origin_attachTo (ds : List Doclet) (d : Doclet) :
    (Doclet.attachTo ds d).origin = d.origin := by
  unfold Doclet.attachTo
  dsimp only
  split <;> rfl

variable {s : PublishSettings} {ds : List Doclet}
  {tutorials : List Tutorial} {p : Publication}

theorem forall₂_prepareAll (r : Registry) (ds : List Doclet) :
    List.Forall₂ (fun d e => e.longname = d.longname ∧ e.origin = d.origin) ds
      (prepareAll r ds).1 := by
  induction ds generalizing r with
  | nil => exact .nil
  | cons d ds ih =>
      exact .cons ⟨eq_of_frame (frame_prepare r d), origin_prepare r d⟩ (ih (prepare r d).2)

theorem origin_expanded (s : PublishSettings) (ds : List Doclet) :
    List.Forall₂ (fun d e => e.origin = (setShortpath (shortpaths ds) d).origin) (kept ds)
      (expanded s ds) := by
  refine List.forall₂_map_right_iff.2 ((forall₂_prepareAll (initial s) (kept ds)).imp ?_)
  rintro d e ⟨hname, horigin⟩
  rw [origin_expandDoclet, origin_setShortpath_congr _ hname horigin]

/-- The origin of a doclet that is published is the one that it came with, with the short
form of its path stored in it. -/
theorem origin_doclets (h : run s ds tutorials = .ok p) :
    List.Forall₂ (fun d out => out.origin =
      (setShortpath (shortpaths ds) d).origin) (kept ds)
      p.doclets := by
  obtain ⟨signed, hsigned, rfl⟩ := run_eq_ok_iff.1 h
  refine List.forall₂_map_right_iff.2 (List.forall₂_map_right_iff.2 ?_)
  refine forall₂_comp (fun d e e' he hsign => ?_) (origin_expanded s ds)
    (mapM_eq_ok_iff.1 hsigned)
  rw [origin_attachTo, origin_complete]
  rw [origin_sign hsign, he]

theorem sourcePath_frame (d : Doclet) : (frame d).sourcePath = d.sourcePath := by
  unfold Doclet.sourcePath frame
  cases d.origin <;> rfl

/-- What becomes of the long name, the path and the origin of a doclet. -/
structure Sourced (ds : List Doclet) (d out : Doclet) : Prop where
  longname : out.longname = d.longname
  sourcePath : out.sourcePath = d.sourcePath
  origin : out.origin = (setShortpath (shortpaths ds) d).origin

theorem sourced_doclets (h : run s ds tutorials = .ok p) :
    List.Forall₂ (Sourced ds) (kept ds) p.doclets := by
  refine List.Forall₂.mp (fun d out hframe horigin => ⟨?_, ?_, horigin⟩) (frame_doclets h)
    (origin_doclets h)
  · exact congrArg (·.longname) hframe.1
  · exact eq_of_frame (d := { out with kind := d.kind }) hframe.1 sourcePath_frame

end Stages

section Listing

variable {s : PublishSettings} {ds : List Doclet}
  {tutorials : List Tutorial} {p : Publication}

/-- All paths are listed with their short forms. -/
theorem map_registerSources (r : Registry) (short : List (String × String)) :
    (registerSources r short).1.map (fun file => (file.path, file.shortpath)) = short := by
  induction short generalizing r with
  | nil => rfl
  | cons path short ih =>
      obtain ⟨path, shortpath⟩ := path
      exact congrArg ((path, shortpath) :: ·) (ih _)

theorem map_sourceFiles (h : run s ds tutorials = .ok p) :
    p.sourceFiles.map (fun file => (file.path, file.shortpath)) = shortpaths ds := by
  obtain ⟨signed, -, rfl⟩ := run_eq_ok_iff.1 h
  exact map_registerSources _ _

/-- The paths that are listed are those of the doclets, each once. -/
theorem map_path_sourceFiles (h : run s ds tutorials = .ok p) :
    p.sourceFiles.map (·.path) = (p.doclets.filterMap Doclet.sourcePath).eraseDups := by
  have hsame : (kept ds).map Doclet.sourcePath = p.doclets.map Doclet.sourcePath := by
    rw [← List.forall₂_eq_eq_eq, List.forall₂_map_left_iff, List.forall₂_map_right_iff]
    exact (sourced_doclets h).imp fun _ _ hout => hout.sourcePath.symm
  have hpaths : (kept ds).filterMap Doclet.sourcePath =
      p.doclets.filterMap Doclet.sourcePath := by
    have hfilter : ∀ l : List Doclet, l.filterMap Doclet.sourcePath =
        (l.map Doclet.sourcePath).filterMap id := fun l => by
      rw [List.filterMap_map, Function.id_comp]
    rw [hfilter, hfilter, hsame]
  calc p.sourceFiles.map (·.path)
      = (p.sourceFiles.map fun file => (file.path, file.shortpath)).map (·.1) := by
        rw [List.map_map]
        rfl
    _ = (shortpaths ds).map (·.1) := by rw [map_sourceFiles h]
    _ = SourcePath.ofDoclets (kept ds) := by
        rw [shortpaths, SourcePath.shorten, List.map_map]
        exact List.map_id' _
    _ = (p.doclets.filterMap Doclet.sourcePath).eraseDups := by
      rw [SourcePath.ofDoclets, hpaths]

/-- The path of a source file that is listed has the short form that is listed. -/
theorem lookup_shortpaths (h : run s ds tutorials = .ok p) {file : SourceFile}
    (hfile : file ∈ p.sourceFiles) :
    (shortpaths ds).lookup file.path = some file.shortpath := by
  have hmem : (file.path, file.shortpath) ∈ shortpaths ds := by
    rw [← map_sourceFiles h]
    exact List.mem_map_of_mem hfile
  obtain ⟨path, hpath, heq⟩ := List.mem_map.1 hmem
  obtain ⟨rfl, hshort⟩ := Prod.mk.inj heq
  rw [← hshort]
  exact SourcePath.lookup_shorten hpath

/-- A doclet that is not anonymous has the short form that is listed for its path. -/
theorem shortpath_of_sourced {d out : Doclet} (h : run s ds tutorials = .ok p)
    (hout : Sourced ds d out)
    (hname : out.longname ≠ "") {file : SourceFile} (hfile : file ∈ p.sourceFiles)
    (hpath : out.sourcePath = some file.path) :
    out.origin.bind (·.shortpath) = some file.shortpath := by
  rw [hout.longname] at hname
  rw [hout.sourcePath] at hpath
  rw [hout.origin, origin_setShortpath, if_neg hname]
  rw [hpath, Option.bind_some, lookup_shortpaths h hfile]
  cases horigin : d.origin with
  | none => simp [Doclet.sourcePath, horigin] at hpath
  | some origin => rfl

/-- Publishing succeeds.  The paths of the doclets that are published are listed, each once,
with files that are apart.  A doclet that is not anonymous has the short path that is listed
for its path, and one that is keeps the origin that it came with. -/
theorem sources_listed (s : PublishSettings) (ds : List Doclet) (tutorials : List Tutorial) :
    ∃ p, run s ds tutorials = .ok p ∧
      (p.sourceFiles.map (·.path)).Nodup ∧
      (∀ path, path ∈ p.sourceFiles.map (·.path) ↔ ∃ d ∈ p.doclets,
        d.sourcePath = some path) ∧
      p.sourceFiles.Pairwise (fun file file' => Apart file.filename file'.filename) ∧
      (∀ d ∈ p.doclets, d.longname ≠ "" → ∀ file ∈ p.sourceFiles,
        d.sourcePath = some file.path →
        d.origin.bind (·.shortpath) = some file.shortpath) ∧
      List.Forall₂ (fun d out => out.longname = d.longname ∧
        (d.longname = "" → out.origin = d.origin))
        (kept ds) p.doclets := by
  obtain ⟨p, book, hrun, -, hrecorded⟩ := exists_recorded s ds tutorials
  have hpaths := map_path_sourceFiles hrun
  have hnodup : (p.sourceFiles.map (·.path)).Nodup := by
    rw [hpaths]
    exact (pairwise_eraseDups _).imp And.left
  refine ⟨p, hrun, hnodup, fun path => ?_, ?_, fun out hout hname file hfile hpath => ?_, ?_⟩
  · rw [hpaths, List.mem_eraseDups, List.mem_filterMap]
  · refine (List.pairwise_map.1 hnodup).imp_of_mem fun {file file'} hfile hfile' hne => ?_
    obtain ⟨base, hmem, hname⟩ := hrecorded.sources hfile
    obtain ⟨base', hmem', hname'⟩ := hrecorded.sources hfile'
    rw [hname, hname']
    exact Filename.apart_of_caseKey_ne
      (hrecorded.shelved.books.caseKey_ne hmem hmem' fun heq => hne (Subject.source.inj heq))
  · obtain ⟨d, -, hsourced⟩ := exists_of_forall₂ (sourced_doclets hrun).flip hout
    exact shortpath_of_sourced hrun hsourced hname hfile hpath
  · refine (sourced_doclets hrun).imp fun d out hout => ⟨hout.longname, fun hname => ?_⟩
    rw [hout.origin, origin_setShortpath, if_pos hname]

/-- Whether a doclet has another short path than the one that is listed for its path. -/
def hasUnlisted (p : Publication) : Bool :=
  p.doclets.any fun d => p.sourceFiles.any fun file =>
    d.sourcePath == some file.path && d.origin.bind (·.shortpath) != some file.shortpath

/-- Whether the files of two paths are the same if case is ignored. -/
def hasTwinSources (p : Publication) : Bool :=
  p.sourceFiles.any fun file => p.sourceFiles.any fun file' => file.path != file'.path &&
    Text.caseKey file.filename.toList == Text.caseKey file'.filename.toList

/-- An anonymous function in a source file. -/
def anonymousSource : List Doclet :=
  [{ longname := "", name := some "x", kind := .function,
     origin := some { filename := some "a.js" } }]

/-- Functions in two source files whose names differ in case only, one of which ends in the
capital sigma. -/
def sigmaSources : List Doclet :=
  [{ longname := "f", name := some "f", kind := .function,
     origin := some { filename := some "ΑΣ" } },
   { longname := "g", name := some "g", kind := .function,
     origin := some { filename := some "ασ" } }]

/-- The doclet of an anonymous function has no short path, although its path is listed with
one.  The files of two sources differ in case only, if the path of one of them ends in a
capital sigma. -/
theorem sources_not_agreeing :
    (∃ p, run {} anonymousSource [] = .ok p ∧ ∃ d ∈ p.doclets, ∃ file ∈ p.sourceFiles,
      d.sourcePath = some file.path ∧ d.origin.bind (·.shortpath) ≠ some file.shortpath) ∧
    ∃ p, run {} sigmaSources [] = .ok p ∧ ∃ file ∈ p.sourceFiles, ∃ file' ∈ p.sourceFiles,
      file.path ≠ file'.path ∧
        Text.caseKey file.filename.toList = Text.caseKey file'.filename.toList := by
  have hunlisted : publishes anonymousSource hasUnlisted = true := by
    have hsort : Doclet.sortByLongname (Doclet.prune anonymousSource) = anonymousSource :=
      kept_eq_of_sorted rfl (by decide +kernel)
    unfold publishes run
    rw [hsort]
    decide +kernel
  have htwins : publishes sigmaSources hasTwinSources = true := by
    have hsort : Doclet.sortByLongname (Doclet.prune sigmaSources) = sigmaSources :=
      kept_eq_of_sorted rfl (by decide +kernel)
    unfold publishes run
    rw [hsort]
    decide +kernel
  obtain ⟨p, hrun, htest⟩ := exists_of_publishes hunlisted
  obtain ⟨p', hrun', htest'⟩ := exists_of_publishes htwins
  refine ⟨⟨p, hrun, ?_⟩, p', hrun', ?_⟩
  · simpa [hasUnlisted] using htest
  · simpa [hasTwinSources] using htest'

end Listing

end Publication
end DocLinks
