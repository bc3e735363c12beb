import TagExpansion.Proofs.Settings

/-
This file proves that a value that is not what it must be might as well not be there.

What must stand at some place of a table of settings is a requirement. A value that does not meet
its requirement is rejected, and a table is cleaned by deleting all rejected values and nothing else.
The layer of a table is the layer of the cleaned table, with one warning for each value that is gone,
in the order in which the table is read.

There is an exception, and it is a mistake. A warning shows the rejected value, but a number with
too many digits cannot be shown. Instead of being passed over it keeps the table from being made into
a layer.
-/

namespace TagExpansion.Config

/-! ### Looking up after a deletion or a change -/

namespace Table

/-- Deletes what stands under a key. -/
def erase (table : Table) (key : Text) : Table := table.filter fun entry => entry.1 ≠ key

/-- Changes the table under a heading, if there is one. -/
def within (table : Table) (heading : Text) (change : Table → Table) : Table :=
  match table.get? heading with
  | some (.table inner) => OrderedMap.insertIn heading (.table (change inner)) table
  | _ => table

variable {table : Table} {key other : Text}

theorem get?_erase :
    (table.erase key).get? other = if key = other then none else table.get? other := by
  unfold get? erase
  rw [OrderedMap.findIn_filter]
  by_cases same : key = other
  · rw [if_pos same, if_pos same]
  · rw [if_neg same, if_neg same]

theorem get?_insertIn_table {inner : Table} :
    get? (OrderedMap.insertIn key (.table inner) table) other =
      if key = other then some (.table inner) else table.get? other := by
  unfold get?
  rw [OrderedMap.findIn_insertIn]
  by_cases same : key = other
  · rw [if_pos same, if_pos same]
  · rw [if_neg same, if_neg same]

theorem get?_within_of_ne {change : Table → Table} (different : key ≠ other) :
    (table.within key change).get? other = table.get? other := by
  unfold within
  split
  · rw [get?_insertIn_table, if_neg different]
  · rfl

end Table

/-! ### Requirements -/

/-- What must stand under a key, and the complaint about something else. -/
structure Requirement where
  key : Text
  accepts : Value → Bool
  complaint : Value → Complaint

/-- A value that does not meet a requirement. -/
structure Rejection where
  requirement : Requirement
  value : Value

/-- The complaint about a rejected value. -/
def Rejection.complaint (rejection : Rejection) : Complaint :=
  rejection.requirement.complaint rejection.value

/-- The warning about a rejected value. -/
def Rejection.warning (rejection : Rejection) : Diagnostic := rejection.complaint.diagnostic

namespace Requirement

variable (requirement : Requirement) (table : Table)

/-- The rejected value of a table, if its value is rejected. -/
def rejected : List Rejection :=
  match table.get? requirement.key with
  | some value => if requirement.accepts value then [] else [⟨requirement, value⟩]
  | none => []

/-- Deletes the value of a table if it is rejected. -/
def prune : Table :=
  match table.get? requirement.key with
  | some value => if requirement.accepts value then table else table.erase requirement.key
  | none => table

/-- Exactly what is accepted is still there. -/
theorem get?_prune_eq_some_iff {value : Value} :
    (requirement.prune table).get? requirement.key = some value ↔
      table.get? requirement.key = some value ∧ requirement.accepts value = true := by
  unfold prune
  cases found : table.get? requirement.key with
  | none => simp [found]
  | some other =>
    dsimp only
    by_cases accepted : requirement.accepts other = true
    · rw [if_pos accepted, found, Option.some.injEq]
      exact ⟨fun same => ⟨same, same ▸ accepted⟩, And.left⟩
    · rw [if_neg accepted, Table.get?_erase, if_pos rfl, Option.some.injEq]
      exact iff_of_false nofun fun ⟨same, accepted'⟩ => accepted (same ▸ accepted')

/-- What stands elsewhere is not touched. -/
theorem get?_prune_of_ne {other : Text} (different : requirement.key ≠ other) :
    (requirement.prune table).get? other = table.get? other := by
  unfold prune
  split
  · split
    · rfl
    · rw [Table.get?_erase, if_neg different]
  · rfl

variable {requirement table}

theorem rejected_of_missing (missing : table.get? requirement.key = none) :
    requirement.rejected table = [] := by
  rw [rejected, missing]

theorem rejected_of_accepts {value : Value} (found : table.get? requirement.key = some value)
    (accepted : requirement.accepts value = true) : requirement.rejected table = [] := by
  rw [rejected, found]
  exact if_pos accepted

theorem rejected_of_refuses {value : Value} (found : table.get? requirement.key = some value)
    (refused : requirement.accepts value = false) :
    requirement.rejected table = [⟨requirement, value⟩] := by
  rw [rejected, found]
  exact if_neg (Bool.not_eq_true _ ▸ refused)

theorem rejected_congr {other : Table}
    (same : table.get? requirement.key = other.get? requirement.key) :
    requirement.rejected table = requirement.rejected other := by
  rw [rejected, rejected, same]

theorem rejected_prune : requirement.rejected (requirement.prune table) = [] := by
  cases found : (requirement.prune table).get? requirement.key with
  | none => exact rejected_of_missing found
  | some value =>
    exact rejected_of_accepts found ((requirement.get?_prune_eq_some_iff table).mp found).2

end Requirement

/-- Under a heading there must be a table. -/
def tableRequired (heading : Text) : Requirement where
  key := heading
  accepts
    | .table _ => true
    | _ => false
  complaint other := { message := '[' :: heading ++ "] must be a table, got ".toList ++
    other.kindName ++ "; ignored".toList }

/-- The name of a setting in a complaint. -/
def settingName (key : Text) : Text := '\'' :: key ++ ['\'']

/-- The limit must be a number that engines accept. -/
def limitRequired : Requirement where
  key := "max_depth".toList
  accepts
    | .number value => decide (Limit.number value).Valid
    | _ => false
  complaint
    | .number value => complaintAbout (settingName "max_depth".toList)
        ("between 1 and ".toList ++ Text.ofNat Limit.greatest) (.number value)
    | other => complaintAbout (settingName "max_depth".toList) "an integer".toList other

/-- The format must be the name of one, in any letter case. -/
def formatRequired : Requirement where
  key := "format".toList
  accepts
    | .text name => (Format.ofAnyCase? name).isSome
    | _ => false
  complaint
    | .text name => { message := "Unknown output format ".toList ++ Text.quoted name ++
        " (expected one of: ".toList ++ Format.choices ++ "); ignored".toList }
    | other => complaintAbout (settingName "format".toList) "a string".toList other

/-- Whether a value is a text. -/
def isText : Value → Bool
  | .text _ => true
  | _ => false

/-- The file of abbreviations must be named by a text. -/
def fileRequired : Requirement where
  key := "abbreviations".toList
  accepts := isText
  complaint := complaintAbout (settingName "abbreviations".toList) "a string".toList

/-- An abbreviation must stand for a text. -/
def textRequired (name : Text) : Requirement where
  key := name
  accepts := isText
  complaint := complaintAbout ("Abbreviation '".toList ++ name ++ ['\'']) "a string".toList

/-! ### Rejected values and cleaned tables -/

namespace Table

variable (table : Table)

/-- The table under a heading. -/
def under (heading : String) : Table := (tableAt table heading.toList).value

/-- The rejected entries of a table of abbreviations. -/
def rejectedTexts : List Rejection :=
  (table.filter fun entry => !isText entry.2).map fun entry => ⟨textRequired entry.1, entry.2⟩

/-- The rejected values of a table of settings, in the order in which it is read. -/
def rejected : List Rejection :=
  (tableRequired "engine".toList).rejected table ++
    limitRequired.rejected (table.under "engine") ++
    formatRequired.rejected (table.under "engine") ++
    (tableRequired "files".toList).rejected table ++
    fileRequired.rejected (table.under "files") ++
    ((tableRequired "abbreviations".toList).rejected table ++
      rejectedTexts (table.under "abbreviations"))

/-- Deletes what stands under a heading if it is no table, and cleans it if it is one. -/
def cleanUnder (heading : String) (clean : Table → Table) : Table :=
  ((tableRequired heading.toList).prune table).within heading.toList clean

/-- Deletes all rejected values. -/
def clean : Table :=
  let table := table.cleanUnder "engine" fun engine =>
    formatRequired.prune (limitRequired.prune engine)
  let table := table.cleanUnder "files" fileRequired.prune
  table.cleanUnder "abbreviations" (List.filter fun entry => isText entry.2)

end Table

/-! ### Every complaint is about a rejected value -/

section Complaints

variable (table : Table)

theorem complaints_tableAt (heading : Text) :
    (tableAt table heading).complaints =
      ((tableRequired heading).rejected table).map Rejection.complaint := by
  cases found : table.get? heading with
  | none =>
    rw [Requirement.rejected_of_missing found, tableAt, found]
    rfl
  | some value =>
    cases value with
    | table inner =>
      rw [Requirement.rejected_of_accepts found rfl, tableAt, found]
      rfl
    | _ =>
      rw [Requirement.rejected_of_refuses found rfl, tableAt, found]
      rfl

theorem complaints_limitAt :
    (limitAt table limitRequired.key).complaints =
      (limitRequired.rejected table).map Rejection.complaint := by
  cases found : table.get? limitRequired.key with
  | none =>
    rw [Requirement.rejected_of_missing found, limitAt, found]
    rfl
  | some value =>
    cases value with
    | number value =>
      rw [limitAt, found]
      by_cases valid : (Limit.number value).Valid
      · rw [Requirement.rejected_of_accepts found (decide_eq_true valid)]
        exact congrArg Checked.complaints (if_pos valid)
      · rw [Requirement.rejected_of_refuses found (decide_eq_false valid)]
        exact congrArg Checked.complaints (if_neg valid)
    | _ =>
      rw [Requirement.rejected_of_refuses found rfl, limitAt, found]
      rfl

theorem complaints_formatAt :
    (formatAt table formatRequired.key).complaints =
      (formatRequired.rejected table).map Rejection.complaint := by
  cases found : table.get? formatRequired.key with
  | none =>
    rw [Requirement.rejected_of_missing found, formatAt, textAt, found]
    rfl
  | some value =>
    cases value with
    | text name =>
      rw [formatAt, textAt, found]
      show (formatNamed name).complaints = _
      cases known : Format.ofAnyCase? name with
      | some format =>
        have accepted : formatRequired.accepts (.text name) = true := congrArg Option.isSome known
        rw [Requirement.rejected_of_accepts found accepted, formatNamed, known]
        rfl
      | none =>
        have refused : formatRequired.accepts (.text name) = false := congrArg Option.isSome known
        rw [Requirement.rejected_of_refuses found refused, formatNamed, known]
        rfl
    | _ =>
      rw [Requirement.rejected_of_refuses found rfl, formatAt, textAt, found]
      rfl

theorem complaints_textAt :
    (textAt table fileRequired.key).complaints =
      (fileRequired.rejected table).map Rejection.complaint := by
  cases found : table.get? fileRequired.key with
  | none =>
    rw [Requirement.rejected_of_missing found, textAt, found]
    rfl
  | some value =>
    cases value with
    | text name =>
      rw [Requirement.rejected_of_accepts found rfl, textAt, found]
      rfl
    | _ =>
      rw [Requirement.rejected_of_refuses found rfl, textAt, found]
      rfl

theorem complaints_abbreviationsIn :
    (abbreviationsIn table).complaints = table.rejectedTexts.map Rejection.complaint := by
  show table.filterMap abbreviationComplaint? = _
  rw [Table.rejectedTexts, List.map_map, ← List.filterMap_eq_map, List.filterMap_filter]
  congr 1
  funext ⟨name, value⟩
  cases value <;> rfl

theorem complaints_eq_map_rejected :
    settingComplaints table ++ listingComplaints table =
      table.rejected.map Rejection.complaint := by
  unfold settingComplaints listingComplaints Table.rejected
  simp only [List.map_append, ← complaints_tableAt, ← complaints_limitAt, ← complaints_formatAt,
    ← complaints_textAt, ← complaints_abbreviationsIn]
  rfl

end Complaints

/-! ### What a cleaned table says -/

namespace Table

section Headings

variable {table : Table} {heading : String} {change : Table → Table}

theorem under_congr {other : Table}
    (same : table.get? heading.toList = other.get? heading.toList) :
    table.under heading = other.under heading := by
  rw [under, under, tableAt, tableAt, same]

theorem get?_cleanUnder_of_ne {other : Text} (different : heading.toList ≠ other) :
    (table.cleanUnder heading change).get? other = table.get? other := by
  rw [cleanUnder, get?_within_of_ne different, Requirement.get?_prune_of_ne _ _ different]

/-- What is left under a heading is a table, and it is clean. -/
theorem get?_cleanUnder :
    (table.cleanUnder heading change).get? heading.toList =
      match table.get? heading.toList with
      | some (.table inner) => some (.table (change inner))
      | _ => none := by
  -- What is left after pruning is a table if it is anything, and only then there is more to clean.
  have left (value : Value) :
      ((tableRequired heading.toList).prune table).get? heading.toList = some value ↔
        table.get? heading.toList = some value ∧
          (tableRequired heading.toList).accepts value = true :=
    (tableRequired heading.toList).get?_prune_eq_some_iff table
  unfold cleanUnder within
  split
  · rename_i inner found
    rw [get?_insertIn_table, if_pos rfl, ((left _).mp found).1]
  · rename_i noTable
    have gone : ((tableRequired heading.toList).prune table).get? heading.toList = none := by
      rw [Option.eq_none_iff_forall_ne_some]
      intro value found
      obtain ⟨-, accepted⟩ := (left value).mp found
      cases value with
      | table inner => exact noTable inner found
      | _ => exact nomatch accepted
    rw [gone]
    split
    · rename_i inner found
      rw [(left _).mpr ⟨found, rfl⟩] at gone
      exact nomatch gone
    · rfl

theorem under_cleanUnder (empty : change [] = []) :
    (table.cleanUnder heading change).under heading = change (table.under heading) := by
  rw [under, under, tableAt, tableAt, get?_cleanUnder]
  cases table.get? heading.toList with
  | none => exact empty.symm
  | some value => cases value <;> first | rfl | exact empty.symm

theorem rejected_cleanUnder :
    (tableRequired heading.toList).rejected (table.cleanUnder heading change) = [] := by
  have left := @get?_cleanUnder table heading change
  cases found : table.get? heading.toList with
  | none =>
    rw [found] at left
    exact Requirement.rejected_of_missing left
  | some value =>
    rw [found] at left
    cases value with
    | table inner => exact Requirement.rejected_of_accepts left rfl
    | _ => exact Requirement.rejected_of_missing left

end Headings

variable (table : Table)

theorem under_engine_clean :
    table.clean.under "engine" =
      formatRequired.prune (limitRequired.prune (table.under "engine")) := by
  rw [clean, under_congr (get?_cleanUnder_of_ne (by decide)),
    under_congr (get?_cleanUnder_of_ne (by decide)), under_cleanUnder rfl]

theorem under_files_clean :
    table.clean.under "files" = fileRequired.prune (table.under "files") := by
  rw [clean, under_congr (get?_cleanUnder_of_ne (by decide)), under_cleanUnder rfl,
    under_congr (get?_cleanUnder_of_ne (by decide))]

theorem under_abbreviations_clean :
    table.clean.under "abbreviations" =
      (table.under "abbreviations").filter fun entry => isText entry.2 := by
  rw [clean, under_cleanUnder rfl, under_congr (get?_cleanUnder_of_ne (by decide)),
    under_congr (get?_cleanUnder_of_ne (by decide))]

/-- A cleaned table has nothing to reject. -/
theorem rejected_clean : table.clean.rejected = [] := by
  have engine : (tableRequired "engine".toList).rejected table.clean = [] := by
    rw [clean, Requirement.rejected_congr (get?_cleanUnder_of_ne (by decide)),
      Requirement.rejected_congr (get?_cleanUnder_of_ne (by decide)), rejected_cleanUnder]
  have files : (tableRequired "files".toList).rejected table.clean = [] := by
    rw [clean, Requirement.rejected_congr (get?_cleanUnder_of_ne (by decide)), rejected_cleanUnder]
  have abbreviations : (tableRequired "abbreviations".toList).rejected table.clean = [] := by
    rw [clean, rejected_cleanUnder]
  have limit : limitRequired.rejected (table.clean.under "engine") = [] := by
    rw [under_engine_clean,
      Requirement.rejected_congr (Requirement.get?_prune_of_ne _ _ (by decide)),
      Requirement.rejected_prune]
  have format : formatRequired.rejected (table.clean.under "engine") = [] := by
    rw [under_engine_clean, Requirement.rejected_prune]
  have file : fileRequired.rejected (table.clean.under "files") = [] := by
    rw [under_files_clean, Requirement.rejected_prune]
  have texts : rejectedTexts (table.clean.under "abbreviations") = [] := by
    rw [under_abbreviations_clean, rejectedTexts, List.filter_filter]
    simp
  rw [rejected, engine, limit, format, files, file, abbreviations, texts]
  rfl

/-- A rejected limit is no limit, and a rejected format is no format. -/
theorem bare_clean (source : Option Path) : table.clean.bare source = table.bare source := by
  have limit : (limitAt (table.clean.under "engine") limitRequired.key).value =
      (limitAt (table.under "engine") limitRequired.key).value := by
    refine Option.ext fun limit => ?_
    rw [value_limitAt_eq_some_iff, value_limitAt_eq_some_iff, under_engine_clean,
      Requirement.get?_prune_of_ne _ _ (by decide)]
    simp only [Requirement.get?_prune_eq_some_iff]
    refine and_congr_right fun valid => exists_congr fun value => and_congr_right fun isNumber => ?_
    exact and_iff_left (decide_eq_true (isNumber ▸ valid))
  have format : (formatAt (table.clean.under "engine") formatRequired.key).value =
      (formatAt (table.under "engine") formatRequired.key).value := by
    refine Option.ext fun format => ?_
    rw [value_formatAt_eq_some_iff, value_formatAt_eq_some_iff, under_engine_clean]
    simp only [Requirement.get?_prune_eq_some_iff,
      Requirement.get?_prune_of_ne limitRequired _ (show _ ≠ formatRequired.key by decide)]
    refine exists_congr fun name => and_congr_left fun named => and_iff_left ?_
    exact Option.isSome_of_eq_some (ofAnyCase?_eq_some_iff.mpr named)
  show ({
    limit := (limitAt (table.clean.under "engine") limitRequired.key).value
    format := (formatAt (table.clean.under "engine") formatRequired.key).value
    files := source.toList } : Layer) = _
  rw [limit, format]
  rfl

theorem fileName?_clean : table.clean.fileName? = table.fileName? := by
  refine Option.ext fun name => ?_
  show (textAt (table.clean.under "files") fileRequired.key).value = some name ↔
    (textAt (table.under "files") fileRequired.key).value = some name
  rw [value_textAt_eq_some_iff, value_textAt_eq_some_iff, under_files_clean,
    Requirement.get?_prune_eq_some_iff]
  exact and_iff_left rfl

theorem listed_clean : table.clean.listed = table.listed := by
  show (table.clean.under "abbreviations").filterMap abbreviationOf? =
    (table.under "abbreviations").filterMap abbreviationOf?
  rw [under_abbreviations_clean, List.filterMap_filter]
  congr 1
  funext ⟨name, value⟩
  cases value <;> rfl

end Table

/-! ### The layers of a table and of the cleaned table -/

namespace Layer

variable {tree : FileTree} {table : Table} {source : Option Path}

theorem outcome_complain_of_untellable {layer : Layer} {complaints : List Complaint}
    (untellable : ¬Tellable complaints) :
    (layer.complain complaints).outcome = .error .numeralTooLong := by
  unfold complain
  refine if_neg fun all => untellable ?_
  exact List.all_eq_true.mp all

/-- A file of abbreviations that can be read adds the same entries to every layer. -/
theorem exists_entries_of_readable {directory : Path}
    (readable : ∀ name, table.NamesFile name →
      ∃ text, tree.readText (directory.append (.ofText name)) = .ok text) :
    ∃ entries, ∀ layer, (addNamedFile tree directory layer table.fileName?).outcome =
      .ok (layer.addAbbreviations entries) := by
  by_cases named : ∃ name, table.NamesFile name
  · obtain ⟨name, named⟩ := named
    obtain ⟨text, read⟩ := readable name named
    refine ⟨(Abbreviations.parse text).toList, fun layer => ?_⟩
    rw [outcome_addNamedFile_eq_ok_iff]
    exact .inr ⟨name, named, outcome_addFile_eq_ok_iff.mpr (.inl ⟨text, read, rfl⟩)⟩
  · refine ⟨[], fun layer => ?_⟩
    rw [outcome_addNamedFile_eq_ok_iff]
    exact .inl ⟨not_exists.mp named, rfl⟩

/-- The way from a table to its layer when all goes well with the file of abbreviations. -/
theorem outcome_ofTable_of_entries {entries : List (Text × Text)}
    (added : ∀ layer, (addNamedFile tree ((source.map Path.parent).getD tree.directoryPath) layer
      table.fileName?).outcome = .ok (layer.addAbbreviations entries)) :
    (Tellable (table.rejected.map Rejection.complaint) →
      (ofTable tree table source).outcome = .ok
        { ((table.bare source).addAbbreviations entries).addAbbreviations table.listed with
          diagnostics := table.rejected.map Rejection.warning }) ∧
    (¬Tellable (table.rejected.map Rejection.complaint) →
      (ofTable tree table source).outcome = .error .numeralTooLong) := by
  have warnings : table.rejected.map Rejection.warning =
      (settingComplaints table).map Complaint.diagnostic ++
        (listingComplaints table).map Complaint.diagnostic := by
    rw [← List.map_append, complaints_eq_map_rejected, List.map_map]
    rfl
  rw [← complaints_eq_map_rejected, warnings]
  constructor
  · intro tellable
    rw [outcome_ofTable_eq_ok_iff, ← tellable_complaints_iff]
    exact ⟨tellable, _, added _, rfl⟩
  · intro untellable
    rw [ofTable_eq, Journal.outcome_andThen]
    -- The way ends before the file of abbreviations is read, or when its entries are added.
    by_cases first : Tellable (settingComplaints table)
    · have second : ¬Tellable (listingComplaints table) :=
        fun second => untellable (tellable_append.mpr ⟨first, second⟩)
      rw [outcome_complain_eq_ok_iff.mpr ⟨first, rfl⟩]
      show (Journal.andThen _ _).outcome = _
      rw [Journal.outcome_andThen, added]
      exact outcome_complain_of_untellable second
    · rw [outcome_complain_of_untellable first]
      rfl

theorem outcome_ofTable_clean {entries : List (Text × Text)}
    (added : ∀ layer, (addNamedFile tree ((source.map Path.parent).getD tree.directoryPath) layer
      table.fileName?).outcome = .ok (layer.addAbbreviations entries)) :
    (ofTable tree table.clean source).outcome = .ok
      { ((table.bare source).addAbbreviations entries).addAbbreviations table.listed with
        diagnostics := [] } := by
  rw [← table.fileName?_clean] at added
  have cleaned := (outcome_ofTable_of_entries added).1
  rw [table.rejected_clean, table.bare_clean, table.listed_clean] at cleaned
  exact cleaned tellable_nil

/-- A table makes the layer that the cleaned table makes, with one warning for each value that was
deleted, in the order of reading. Only if one of the warnings cannot be told, it makes none. -/
theorem ofTable_eq_of_clean (tree : FileTree) (table : Table) (source : Option Path)
    (readable : ∀ name, table.NamesFile name → ∃ text, tree.readText
      (((source.map Path.parent).getD tree.directoryPath).append (.ofText name)) = .ok text) :
    ∃ layer, (ofTable tree table.clean source).outcome = .ok layer ∧ layer.diagnostics = [] ∧
      (Tellable (table.rejected.map Rejection.complaint) →
        (ofTable tree table source).outcome =
          .ok { layer with diagnostics := table.rejected.map Rejection.warning }) ∧
      (¬Tellable (table.rejected.map Rejection.complaint) →
        (ofTable tree table source).outcome = .error .numeralTooLong) := by
  obtain ⟨entries, added⟩ := exists_entries_of_readable readable
  exact ⟨_, outcome_ofTable_clean added, rfl, outcome_ofTable_of_entries added⟩

/-- A limit that is no number and an abbreviation without a text are each worth a warning, and what
stands next to them is read. -/
theorem ofTable_eq_of_two_rejected :
    let table : Table := [
      ("engine".toList, .table [
        ("max_depth".toList, .flag true), ("format".toList, .text "html".toList)]),
      ("abbreviations".toList, .table [("x".toList, .none), ("y".toList, .text "z".toList)])]
    ∃ layer, (ofTable { nodes := .empty } table.clean none).outcome = .ok layer ∧
      (ofTable { nodes := .empty } table none).outcome = .ok { layer with diagnostics := [
        ⟨.warning, "'max_depth' must be an integer, got True; ignored".toList, 1⟩,
        ⟨.warning, "Abbreviation 'x' must be a string, got None; ignored".toList, 1⟩] } := by
  intro table
  have unnamed : ∀ name, ¬table.NamesFile name := by
    intro name named
    rw [namesFile_iff] at named
    exact nomatch named.1
  have warned : table.rejected.map Rejection.warning = [
      ⟨.warning, "'max_depth' must be an integer, got True; ignored".toList, 1⟩,
      ⟨.warning, "Abbreviation 'x' must be a string, got None; ignored".toList, 1⟩] := by
    decide +kernel
  obtain ⟨layer, cleaned, -, made, -⟩ := ofTable_eq_of_clean { nodes := .empty } table none
    fun name named => absurd named (unnamed name)
  rw [warned] at made
  exact ⟨layer, cleaned, made (by unfold Tellable; decide)⟩

/-- Settings of a limit. -/
def limitTable (value : Value) : Table :=
  [("engine".toList, .table [("max_depth".toList, value)])]

theorem outcome_ofTable_limitTable {value : Int} (invalid : ¬(Limit.number value).Valid)
    (unwritable : (Value.number value).isWritable = false) :
    (∃ layer, (ofTable tree (limitTable (.number value)).clean none).outcome = .ok layer) ∧
      (ofTable tree (limitTable (.number value)) none).outcome = .error .numeralTooLong := by
  have found : ((limitTable (.number value)).under "engine").get? limitRequired.key =
      some (.number value) := rfl
  have member : ⟨limitRequired, .number value⟩ ∈ (limitTable (.number value)).rejected := by
    rw [Table.rejected, Requirement.rejected_of_refuses found (decide_eq_false invalid)]
    exact List.mem_cons_self
  have untellable : ¬Tellable ((limitTable (.number value)).rejected.map Rejection.complaint) := by
    intro tellable
    have told : (limitRequired.complaint (.number value)).tellable = true :=
      tellable _ (List.mem_map_of_mem member)
    have written : (Value.number value).isWritable = true := tellable_complaintAbout.symm.trans told
    rw [unwritable] at written
    exact nomatch written
  have added (layer : Layer) : (addNamedFile tree tree.directoryPath layer
      (limitTable (.number value)).fileName?).outcome = .ok (layer.addAbbreviations []) := rfl
  exact ⟨⟨_, outcome_ofTable_clean added⟩, (outcome_ofTable_of_entries added).2 untellable⟩

theorem hasNumeral_of_le {number : Nat} (long : Nat.pow 10 Text.maxNumeralDigits ≤ number) :
    Text.hasNumeral number = false := by
  unfold Text.hasNumeral
  exact decide_eq_false (Nat.not_lt_of_le long)

/-- A limit with too many digits is not passed over, although it is rejected. -/
theorem ofTable_eq_error_of_long_limit :
    let table := limitTable (.number (Nat.pow 10 Text.maxNumeralDigits))
    (∃ layer, (ofTable { nodes := .empty } table.clean none).outcome = .ok layer) ∧
      (ofTable { nodes := .empty } table none).outcome = .error .numeralTooLong := by
  have longer (digits : Nat) (enough : 3 ≤ digits) : Limit.greatest < Nat.pow 10 digits :=
    Nat.lt_of_lt_of_le (show Limit.greatest < 10 ^ 3 by decide)
      (Nat.pow_le_pow_right (by decide) enough)
  have long := longer Text.maxNumeralDigits (by decide)
  have unwritable : (Value.number (Nat.pow 10 Text.maxNumeralDigits)).isWritable = false := by
    rw [Value.isWritable]
    exact hasNumeral_of_le (Nat.le_refl _)
  generalize Nat.pow 10 Text.maxNumeralDigits = number at long unwritable ⊢
  refine outcome_ofTable_limitTable (fun valid => ?_) unwritable
  exact absurd (Int.ofNat_le.mp valid.2) (Nat.not_le_of_lt long)

end Layer

end TagExpansion.Config
