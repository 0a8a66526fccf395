import DocLinks.Expansion.Segment
import DocLinks.Files
import DocLinks.Text.Quoted

/-!
# Settings

What a user can choose: how the sidebar names symbols, where tickets are, what tickets look
like, and which names are documented elsewhere.

**Validity.**  The letters of tickets are one or more capital letters of ASCII, and neither a
name that is documented elsewhere nor its link is empty.  The address of tickets may be
anything; one that is no web address only means that tickets are not linked.

**Results.**  `validate_eq_ok_iff`: validation succeeds exactly on valid settings.
-/

namespace DocLinks

/-- The settings.  Names that are documented elsewhere stand in ascending order with their
links, and the source is the file that the settings come from. -/
structure Settings where
  showsLongnames : Bool := false
  ticketBaseUrl : String := Expander.defaultBaseUrl
  ticketMark : String := Expander.defaultMark
  linkMap : List (String × String) := []
  source : Option String := none
  deriving DecidableEq, Repr, Inhabited

/-- A setting whose text may refer to the environment. -/
inductive ExpandedSetting where
  | ticketBaseUrl
  | link (name : String)
  deriving DecidableEq, Repr

namespace ExpandedSetting

/-- The setting as messages name it. -/
def path : ExpandedSetting → String
  | ticketBaseUrl => "templates.phabricator_base_url"
  | link name => "templates.link_map." ++ name

end ExpandedSetting

/-- Why settings are not valid: the letters of tickets are missing or not only capital
letters, or a name that is documented elsewhere is empty or has an empty link. -/
inductive Defect where
  | emptyMark
  | badMark (mark : String)
  | emptyName
  | emptyLink (name : String)
  deriving DecidableEq, Repr

namespace Defect

/-- What is said about a defect. -/
def message : Defect → String
  | emptyMark => "templates.ticket_prefix cannot be empty"
  | badMark mark =>
      "templates.ticket_prefix must be uppercase ASCII letters, got " ++ Text.quoted mark
  | emptyName => "templates.link_map key cannot be empty"
  | emptyLink name => (ExpandedSetting.link name).path ++ " cannot be empty"

end Defect

/-- Why there are no settings.  A malformed file is no TOML, or its values are not those of
settings; a setting is unset if it refers to a variable that is not set. -/
inductive SettingsError where
  | notFound (path : String)
  | unreadable (e : FileError)
  | malformed
  | invalid (d : Defect)
  | unset (setting : ExpandedSetting) (name : String)
  deriving DecidableEq, Repr

namespace SettingsError

/-- What is said about an error. -/
def message : SettingsError → String
  | notFound path => "Configuration file not found: " ++ path
  | unreadable e => "I/O error: " ++ e.message
  | malformed => "TOML parse error:"
  | invalid d => "Configuration error: " ++ d.message
  | unset setting name =>
      "Environment variable error in " ++ setting.path ++ ": $" ++
      "\x7b" ++ name ++ "\x7d" ++
        " not set"

end SettingsError

namespace Settings

/-- Checks the letters of tickets. -/
def validateMark (mark : String) : Except Defect Unit :=
  if mark == "" then .error .emptyMark
  else if mark.toList.all Char.isUpper then .ok ()
  else .error (.badMark mark)

/-- Checks a name that is documented elsewhere, and its link. -/
def validateLink (name link : String) : Except Defect Unit :=
  if name == "" then .error .emptyName
  else if link == "" then .error (.emptyLink name)
  else .ok ()

/-- Checks names that are documented elsewhere one after the other. -/
def validateLinks : List (String × String) → Except Defect Unit
  | [] => .ok ()
  | (name, link) :: rest =>
      match validateLink name link with
      | .ok _ => validateLinks rest
      | .error d => .error d

/-- Checks settings; of several defects the first one is reported. -/
def validate (s : Settings) : Except Defect Unit :=
  match validateMark s.ticketMark with
  | .ok _ => validateLinks s.linkMap
  | .error d => .error d

/-- Settings with which the program can run. -/
structure IsValid (s : Settings) : Prop where
  mark_ne : s.ticketMark ≠ ""
  mark_upper : ∀ c ∈ s.ticketMark.toList, c.isUpper = true
  links_ne : ∀ entry ∈ s.linkMap, entry.1 ≠ "" ∧ entry.2 ≠ ""

theorem validateMark_eq_ok_iff {mark : String} :
    validateMark mark = .ok () ↔ mark ≠ "" ∧ ∀ c ∈ mark.toList, c.isUpper = true := by
  unfold validateMark
  by_cases h : mark = ""
  · simp [h]
  · by_cases hu : mark.toList.all Char.isUpper = true
    · rw [if_neg (by simpa using h), if_pos hu]
      simpa [h] using hu
    · rw [if_neg (by simpa using h), if_neg hu]
      simp only [reduceCtorEq, false_iff]
      rintro ⟨-, hall⟩
      exact hu (List.all_eq_true.2 hall)

theorem validateLink_eq_ok_iff {name link : String} :
    validateLink name link = .ok () ↔ name ≠ "" ∧ link ≠ "" := by
  unfold validateLink
  by_cases hn : name = ""
  · simp [hn]
  · by_cases hl : link = "" <;> simp [hn, hl]

theorem validateLinks_eq_ok_iff {links : List (String × String)} :
    validateLinks links = .ok () ↔ ∀ entry ∈ links, entry.1 ≠ "" ∧ entry.2 ≠ "" := by
  induction links with
  | nil => simp [validateLinks]
  | cons entry rest ih =>
      obtain ⟨name, link⟩ := entry
      cases h : validateLink name link with
      | ok u =>
          have := validateLink_eq_ok_iff.1 h
          simp [validateLinks, h, ih, this]
      | error d =>
          have : ¬ (name ≠ "" ∧ link ≠ "") := fun hne => by
            rw [validateLink_eq_ok_iff.2 hne] at h
            cases h
          simp only [validateLinks, h, reduceCtorEq, List.forall_mem_cons, false_iff]
          exact fun hall => this hall.1

theorem validate_eq_ok_iff {s : Settings} : s.validate = .ok () ↔ s.IsValid := by
  unfold validate
  cases h : validateMark s.ticketMark with
  | ok u =>
      have hm := validateMark_eq_ok_iff.1 h
      simp only [validateLinks_eq_ok_iff]
      exact ⟨fun hl => ⟨hm.1, hm.2, hl⟩, fun hv => hv.links_ne⟩
  | error d =>
      simp only [reduceCtorEq, false_iff]
      intro hv
      rw [validateMark_eq_ok_iff.2 ⟨hv.mark_ne, hv.mark_upper⟩] at h
      cases h

end Settings

end DocLinks
