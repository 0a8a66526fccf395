import Mathlib.Data.List.Induction
import DocLinks.Proofs.FileBooks
import DocLinks.Proofs.ListSteps
import DocLinks.Proofs.RegistryRuns
import DocLinks.Proofs.ShortNames

/-!
# What a registry holds after its history

A registry is told to register names in any order: by callers, when a page is asked for, and
when short names are added.  The history of a registry is the list of all entries that it was
offered.  What it holds are the first ones with their names.

**Invariants.**  The entries are the first ones of the history (`entries_after`), and the
files of the home page and the global page are taken (`Reserving`).

**Results.**
* `entries_step`: which entries a step offers.
* `entries_after`: what a registry holds is told by its history.
* `isAlias_after_iff`, `kept_after`: which names are aliases, and that later steps change no
  name.
* `write_once_after`: names are registered once, in order and for good, and no file of a
  reserved page is handed out.
-/

namespace DocLinks
namespace Registry

/-- A step in the history of a registry: a call, or the addition of the short names of all
entries. -/
inductive Step where
  | call (c : Call)
  | addAliases

/-- The registry after a step. -/
def step (r : Registry) : Step → Registry
  | .call c => (r.call c).2
  | .addAliases => (Shortname.addAliases r).2

/-- The registry after some steps. -/
def after (r : Registry) (steps : List Step) : Registry :=
  steps.foldl step r

/-- The entries that a step tells the registry to register, in their order. -/
def offers (r : Registry) : Step → List Entry
  | .call (.register name url) => [⟨name, url, false⟩]
  | .call (.registerAlias name url) => [⟨name, url, true⟩]
  | .call (.claimFile _) => []
  | .call (.addTutorial _ _) => []
  | .call (.createLink d) =>
      let owner := (placement d).owner
      if r.contains owner then [] else [⟨owner, (r.claimFile owner).1, false⟩]
  | .addAliases =>
      (Shortname.unambiguous (Shortname.candidates r)).map fun c => ⟨c.1, c.2, true⟩

/-- The entries that some steps tell the registry to register. -/
def offered (r : Registry) : List Step → List Entry
  | [] => []
  | s :: steps => r.offers s ++ (r.step s).offered steps

/-- The file that a step hands out, for a page without a long name or for a tutorial. -/
def handsOut? (r : Registry) : Step → Option String
  | .call (.claimFile name) => some (r.claimFile name).1
  | .call (.addTutorial name title) => some (r.addTutorial name title).1
  | _ => none

/-- The files that some steps hand out. -/
def handedOut (r : Registry) : List Step → List String
  | [] => []
  | s :: steps => (r.handsOut? s).toList ++ (r.step s).handedOut steps

/-- All entries that a new registry has been told to register; the first one is that of the
global page. -/
def history (steps : List Step) : List Entry :=
  new.entries ++ new.offered steps

section Entries

variable {r r' : Registry}

theorem entries_add (r : Registry) (e : Entry) :
    (r.add e).entries = if ∃ e' ∈ r.entries, e'.name = e.name then r.entries
      else r.entries ++ [e] := by
  have hcontains : r.contains e.name = true ↔ ∃ e' ∈ r.entries, e'.name = e.name := by
    simp [contains]
  unfold add
  simp only [hcontains]
  split <;> rfl

/-- Registering entries one by one keeps the first ones with their names. -/
theorem entries_foldl_add (h : firsts Entry.name r.entries = r.entries) (es : List Entry) :
    (es.foldl add r).entries = firsts Entry.name (r.entries ++ es) := by
  induction es using List.reverseRecOn with
  | nil => rw [List.foldl_nil, List.append_nil, h]
  | append_singleton es e ih =>
      rw [List.foldl_concat, entries_add, ih]
      rw [← List.append_assoc, firsts_concat]
      simp only [exists_mem_firsts_iff]

theorem entries_createLink_eq (r : Registry) (d : Doclet) :
    (r.createLink d).2.entries =
      ((r.offers (.call (.createLink d))).foldl add r).entries := by
  rw [r.entries_createLink d]
  unfold pageFor offers
  dsimp only
  cases hname : r.resolve? (placement d).owner with
  | some url =>
      rw [if_pos ((r.contains_iff _).2 ⟨url, hname⟩)]
      rfl
  | none =>
      rw [contains_eq_false_iff.2 hname]
      rw [if_neg Bool.false_ne_true]
      simp only [List.foldl_cons, List.foldl_nil, register, entries_add]
      rfl

/-- Short names are registered one by one. -/
theorem register_eq_foldl_add (all : List (String × String)) (r : Registry) :
    (Shortname.register all r).2 = (all.map fun c => ⟨c.1, c.2, true⟩).foldl add r := by
  induction all generalizing r with
  | nil => rfl
  | cons c rest ih =>
      obtain ⟨short, url⟩ := c
      rw [Shortname.register, List.map_cons, List.foldl_cons]
      split
      · rename_i hcontains
        rw [add_of_contains hcontains, ih]
      · exact ih _

/-- A step registers what it offers, and nothing else. -/
theorem entries_step (r : Registry) (s : Step) :
    (r.step s).entries = ((r.offers s).foldl add r).entries := by
  cases s with
  | call c =>
      cases c with
      | register name url => rfl
      | registerAlias name url => rfl
      | claimFile name => rfl
      | addTutorial name title =>
          simp only [step, call, addTutorial, offers]
          split <;> rfl
      | createLink d => exact r.entries_createLink_eq d
  | addAliases =>
      exact congrArg Registry.entries (register_eq_foldl_add _ r)

/-- What a registry holds after some steps are the first entries with their names among those
that it had and those that it was offered. -/
theorem entries_after_eq_firsts (h : firsts Entry.name r.entries = r.entries)
    (steps : List Step) :
    (r.after steps).entries = firsts Entry.name (r.entries ++ r.offered steps) := by
  induction steps generalizing r with
  | nil =>
      rw [offered, List.append_nil, h]
      rfl
  | cons s steps ih =>
      have hstep : (r.step s).entries = firsts Entry.name (r.entries ++ r.offers s) := by
        rw [entries_step, entries_foldl_add h]
      have hfirsts : firsts Entry.name (r.step s).entries = (r.step s).entries := by
        rw [hstep, firsts_of_pairwise (pairwise_firsts _)]
      calc (r.after (s :: steps)).entries
          = ((r.step s).after steps).entries := rfl
        _ = firsts Entry.name ((r.step s).entries ++ (r.step s).offered steps) := ih hfirsts
        _ = firsts Entry.name (r.entries ++ r.offers s ++ (r.step s).offered steps) := by
            rw [hstep, firsts_firsts_append]
        _ = firsts Entry.name (r.entries ++ r.offered (s :: steps)) := by
            rw [List.append_assoc, offered]

/-- The entries of a new registry are told by its history. -/
theorem entries_after (steps : List Step) :
    (new.after steps).entries = firsts Entry.name (history steps) :=
  entries_after_eq_firsts (firsts_of_pairwise (List.pairwise_singleton _ _)) steps

theorem prefix_after (r : Registry) (steps : List Step) :
    r.entries <+: (r.after steps).entries := by
  have hadd : ∀ (es : List Entry) (r : Registry),
      r.entries <+: (es.foldl add r).entries := by
    intro es
    induction es with
    | nil => exact fun _ => List.prefix_rfl
    | cons e es ih => exact fun r => (r.prefix_add e).trans (ih (r.add e))
  induction steps generalizing r with
  | nil => exact List.prefix_rfl
  | cons s steps ih =>
      have hstep : r.entries <+: (r.step s).entries := by
        rw [entries_step]
        exact hadd _ r
      exact hstep.trans (ih _)

end Entries

section Names

variable {r : Registry} {name : String} {e : Entry}

theorem nodup_names_after (steps : List Step) : (new.after steps).names.Nodup := by
  rw [names, entries_after]
  exact List.pairwise_map.2 ((pairwise_firsts _).imp Ne.symm)

/-- If names are registered once, every entry is the one that its name is looked up in. -/
theorem find?_of_mem (h : r.names.Nodup) (he : e ∈ r.entries) : r.find? e.name = some e := by
  have hsome : (r.find? e.name).isSome = true := List.find?_isSome.2 ⟨e, he, by simp⟩
  obtain ⟨e', he'⟩ := Option.isSome_iff_exists.1 hsome
  have hname : e'.name = e.name := by simpa using List.find?_some he'
  rw [he', List.inj_on_of_nodup_map h (List.mem_of_find?_eq_some he') he hname]

/-- If names are registered once, a name is an alias exactly if its entry says so. -/
theorem isAlias_eq_any (h : r.names.Nodup) (name : String) :
    r.isAlias name = (r.find? name).any (·.isAlias) := by
  rw [isAlias, Bool.eq_iff_iff, List.any_eq_true]
  constructor
  · rintro ⟨e, he, hboth⟩
    obtain ⟨hname, halias⟩ := Bool.and_eq_true_iff.1 hboth
    obtain rfl := beq_iff_eq.1 hname
    rw [find?_of_mem h he]
    exact halias
  · intro halias
    cases hfind : r.find? name with
    | none => simp [hfind] at halias
    | some e =>
        rw [hfind] at halias
        have hname : e.name = name := by simpa using List.find?_some hfind
        exact ⟨e, List.mem_of_find?_eq_some hfind,
          Bool.and_eq_true_iff.2 ⟨by simp [hname], halias⟩⟩

/-- The first entry of a name in the history is the one that its name is looked up in. -/
theorem find?_after (steps : List Step) (name : String) :
    (new.after steps).find? name = (history steps).find? (·.name == name) := by
  rw [find?, entries_after, find?_firsts]

/-- A name is an alias exactly if it was first registered as one. -/
theorem isAlias_after_iff (steps : List Step) (name : String) :
    (new.after steps).isAlias name = true ↔
      ∃ url, (new.after steps).resolve? name = some url ∧
        (history steps).find? (·.name == name) = some ⟨name, url, true⟩ := by
  rw [isAlias_eq_any (nodup_names_after steps), resolve?, find?_after]
  constructor
  · intro halias
    cases hfind : (history steps).find? (·.name == name) with
    | none => simp [hfind] at halias
    | some e =>
        rw [hfind] at halias
        obtain ⟨name', url, flag⟩ := e
        obtain rfl : name' = name := by simpa using List.find?_some hfind
        obtain rfl : flag = true := halias
        exact ⟨url, rfl, rfl⟩
  · rintro ⟨url, -, hfind⟩
    rw [hfind]
    rfl

/-- Later steps keep where a registered name leads and whether it is an alias. -/
theorem kept_after (steps later : List Step)
    (hname : (new.after steps).contains name = true) :
    (new.after (steps ++ later)).resolve? name = (new.after steps).resolve? name ∧
      (new.after (steps ++ later)).isAlias name = (new.after steps).isAlias name := by
  have hafter : new.after (steps ++ later) =
      (new.after steps).after later := List.foldl_append
  obtain ⟨url, hurl⟩ := (contains_iff _ name).1 hname
  obtain ⟨e, he, -⟩ := Option.map_eq_some_iff.1 hurl
  have he' : (new.after (steps ++ later)).find? name = some e := by
    rw [hafter]
    exact find?_of_isPrefix (prefix_after _ later) he
  rw [resolve?, resolve?, isAlias_eq_any (nodup_names_after _)]
  rw [isAlias_eq_any (nodup_names_after _), he, he']
  exact ⟨rfl, rfl⟩

end Names

section Files

/-- The basenames of the home page and the global page. -/
def reservedBases : List (List Char) :=
  ["index".toList, "global".toList]

/-- A file that is neither that of the home page nor that of the global page, even if case is
ignored. -/
def Unreserved (file : String) : Prop :=
  ∀ base ∈ reservedBases, Text.caseKey file.toList ≠
    Text.caseKey (Filename.fileOf base).toList

/-- The files of the home page and the global page are taken, and no tutorial has them. -/
structure Reserving (r : Registry) : Prop where
  taken {base : List Char} : base ∈ reservedBases → Text.caseKey base ∈ r.files.takenFiles
  tutorials {name : String} {page : TutorialPage} :
    r.tutorial? name = some page → Unreserved page.url

variable {r r' : Registry}

theorem Reserving.claimFile_fst (h : Reserving r) (name : String) :
    Unreserved (r.claimFile name).1 := by
  have hclear : ∀ base ∈ reservedBases, 'σ' ∉ Text.lower (Filename.fileOf base).toList ∧
      'ς' ∉ Text.lower (Filename.fileOf base).toList := by
    decide +kernel
  intro base hbase
  obtain ⟨hsmall, hfinal⟩ := hclear base hbase
  exact r.files.caseKey_claimFile_ne name (h.taken hbase) hsmall hfinal

theorem Reserving.congr (h : Reserving r) (hfiles : r'.files.files = r.files.files)
    (htutorials : r'.tutorials = r.tutorials) : Reserving r' := by
  refine ⟨fun {base} hbase => ?_, fun {name page} hpage => ?_⟩
  · rw [Filename.Allocator.takenFiles, hfiles]
    exact h.taken hbase
  · rw [tutorial?, htutorials] at hpage
    exact h.tutorials hpage

theorem Reserving.claimFile_snd (h : Reserving r) (name : String) :
    Reserving (r.claimFile name).2 :=
  ⟨fun hbase => List.mem_cons_of_mem _ (h.taken hbase), h.tutorials⟩

theorem Reserving.foldl_add (h : Reserving r) (es : List Entry) :
    Reserving (es.foldl add r) := by
  induction es generalizing r with
  | nil => exact h
  | cons e es ih =>
      exact ih (h.congr (congrArg (·.files) (r.files_add e)) (r.tutorials_add e))

theorem Reserving.addTutorial (h : Reserving r) (name title : String) :
    Unreserved (r.addTutorial name title).1 ∧ Reserving (r.addTutorial name title).2 := by
  cases hpage : r.tutorial? name with
  | some page =>
      rw [r.addTutorial_of_some hpage]
      exact ⟨h.tutorials hpage, h⟩
  | none =>
      obtain ⟨hurl, hfiles⟩ := r.addTutorial_of_none hpage title
      have hfile : Unreserved (r.addTutorial name title).1 := by
        rw [hurl]
        exact h.claimFile_fst _
      refine ⟨hfile, fun {base} hbase => ?_, fun {name' page} hpage => ?_⟩
      · rw [hfiles]
        exact (h.claimFile_snd _).taken hbase
      · rw [r.tutorial?_addTutorial, Option.or_eq_some_iff] at hpage
        rcases hpage with hpage | ⟨-, hpage⟩
        · exact h.tutorials hpage
        · obtain ⟨-, hnew⟩ := Option.ite_none_right_eq_some.1 hpage
          obtain rfl := Option.some.inj hnew
          exact hfile

theorem Reserving.createLink (h : Reserving r) (d : Doclet) :
    Reserving (r.createLink d).2 := by
  obtain ⟨hfiles, htutorials⟩ := r.files_createLink d
  refine Reserving.congr ?_ hfiles htutorials
  unfold pageFor
  split
  · exact h
  · exact (h.claimFile_snd _).foldl_add [_]

/-- A step hands out no reserved file. -/
theorem Reserving.step (h : Reserving r) (s : Step) :
    (∀ file ∈ r.handsOut? s, Unreserved file) ∧ Reserving (r.step s) := by
  cases s with
  | call c =>
      cases c with
      | register name url => exact ⟨by simp [handsOut?], h.foldl_add [_]⟩
      | registerAlias name url => exact ⟨by simp [handsOut?], h.foldl_add [_]⟩
      | claimFile name =>
          refine ⟨fun file hfile => ?_, h.claimFile_snd name⟩
          rw [← Option.some.inj hfile]
          exact h.claimFile_fst name
      | addTutorial name title =>
          obtain ⟨hurl, hafter⟩ := h.addTutorial name title
          refine ⟨fun file hfile => ?_, hafter⟩
          rw [← Option.some.inj hfile]
          exact hurl
      | createLink d => exact ⟨by simp [handsOut?], h.createLink d⟩
  | addAliases =>
      refine ⟨by simp [handsOut?], ?_⟩
      have hstep : r.step .addAliases = _ := register_eq_foldl_add _ r
      rw [hstep]
      exact h.foldl_add _

theorem reserving_new : Reserving new := by
  refine ⟨fun {base} hbase => ?_, fun {name page} hpage => ?_⟩
  · revert base
    decide +kernel
  · simp [tutorial?, new] at hpage

/-- Some steps hand out no reserved file. -/
theorem Reserving.handedOut (h : Reserving r) (steps : List Step) :
    ∀ file ∈ r.handedOut steps, Unreserved file := by
  induction steps generalizing r with
  | nil => simp [Registry.handedOut]
  | cons s steps ih =>
      obtain ⟨hfiles, hstep⟩ := h.step s
      intro file hfile
      rcases List.mem_append.1 hfile with hfile | hfile
      · exact hfiles file (by simpa using hfile)
      · exact ih hstep file hfile

end Files

/-- Whatever is done to a new registry, and in whatever order: its names are different, they
are the ones that are mapped, and every entry is what its name is looked up in.  What it
holds are the first entries with their names among all that it was told to register, in that
order; a name is an alias exactly if it was first registered as one.  The global page is
there and is no alias.  Later steps keep the order of the names that are registered, where
they lead and whether they are aliases.  No file that is handed out is that of the home page
or of the global page, even if case is ignored. -/
theorem write_once_after (steps : List Step) :
    let r := new.after steps
    r.names.Nodup ∧
    (∀ name, name ∈ r.names ↔ ∃ url, r.resolve? name = some url) ∧
    (∀ e ∈ r.entries, r.resolve? e.name = some e.url ∧ r.isAlias e.name = e.isAlias) ∧
    r.entries = firsts Entry.name (history steps) ∧
    (∀ name, r.isAlias name = true ↔ ∃ url, r.resolve? name = some url ∧
      (history steps).find? (·.name == name) = some ⟨name, url, true⟩) ∧
    r.resolve? globalName = some "global.html" ∧ r.isAlias globalName = false ∧
    (∀ front back, steps = front ++ back →
      (new.after front).entries <+: r.entries ∧
      ∀ name, (new.after front).contains name = true →
        r.resolve? name = (new.after front).resolve? name ∧
        r.isAlias name = (new.after front).isAlias name) ∧
    ∀ file ∈ new.handedOut steps,
      Text.caseKey file.toList ≠ Text.caseKey indexUrl.toList ∧
      Text.caseKey file.toList ≠ Text.caseKey "global.html".toList := by
  intro r
  have hnodup : r.names.Nodup := nodup_names_after steps
  have hglobal : r.find? globalName = some ⟨globalName, "global.html", false⟩ := by
    refine find?_of_isPrefix (prefix_after new steps) ?_
    decide +kernel
  refine ⟨hnodup, fun name => ?_, fun e he => ?_, entries_after steps,
    isAlias_after_iff steps, ?_, ?_, fun front back hsplit => ?_, fun file hfile => ?_⟩
  · rw [← r.contains_iff, contains, names]
    rw [List.mem_map, List.any_eq_true]
    simp
  · have hfind := find?_of_mem hnodup he
    rw [resolve?, isAlias_eq_any hnodup, hfind]
    exact ⟨rfl, rfl⟩
  · rw [resolve?, hglobal]
    rfl
  · rw [isAlias_eq_any hnodup, hglobal]
    rfl
  · have hafter : r = new.after (front ++ back) := congrArg new.after hsplit
    have hstart : (new.after front).entries <+: (new.after (front ++ back)).entries := by
      rw [show new.after (front ++ back) =
        (new.after front).after back from List.foldl_append]
      exact prefix_after _ back
    rw [hafter]
    exact ⟨hstart, fun name hname => kept_after front back hname⟩
  · have hfree := reserving_new.handedOut steps file hfile
    exact ⟨hfree "index".toList (by decide), hfree "global".toList (by decide)⟩

end Registry
end DocLinks
