import TagExpansion.Abbreviation
import TagExpansion.Proofs.OrderedMap
import TagExpansion.Proofs.Trimming

/-
This file compares files of abbreviations with the abbreviations they define.

A file is read line by line, and what a line defines depends on nothing but the line. A line feed
between two files ends a line, whatever stands on either side of it: at worst it makes an empty line
more, which defines nothing. So the definitions of two files one behind the other are those of the
first and then those of the second, and the table of both is the second table laid over the first.

A table can be written with one line for each of its entries. It comes back from there if no entry
has anything in it that a line cannot hold: a line boundary, a closing bracket in the name, or
blanks at the ends. All that was ever read from a file is like this, because a line has no line
boundary inside, a name ends at the first bracket, and the blanks were taken off.
-/

namespace TagExpansion

/-! ### Lines -/

namespace Text

theorem lines_returnFeed (rest : Text) : lines ('\r' :: '\n' :: rest) = [] :: lines rest := by
  rw [lines]

theorem lines_boundary {c : Char} (boundary : isLineBoundary c = true) {rest : Text}
    (single : c = '\r' → rest.head? ≠ some '\n') : lines (c :: rest) = [] :: lines rest := by
  rw [lines, if_pos boundary]
  rintro others rfl rfl
  exact single rfl rfl

theorem lines_lineFeed (rest : Text) : lines ('\n' :: rest) = [] :: lines rest :=
  lines_boundary (by decide) nofun

theorem lines_plain {c : Char} (plain : isLineBoundary c = false) (rest : Text) :
    lines (c :: rest) = pushFirst c (lines rest) := by
  rw [lines, if_neg (by simp [plain])]
  rintro others rfl rfl
  cases plain

theorem lines_eq_nil_iff {text : Text} : lines text = [] ↔ text = [] := by
  fun_cases lines text with
  | case1 => simp
  | case2 rest => simp
  | case3 c rest alone boundary => simp
  | case4 c rest alone plain => simp [pushFirst_ne_nil]

/-- A line feed between two texts ends a line. If the first text had ended its last line itself, or
has none, an empty line comes in between; a carriage return at its end takes the line feed in. -/
theorem lines_append_lineFeed (first second : Text) :
    lines (first ++ '\n' :: second) = lines first ++ lines second ∨
      lines (first ++ '\n' :: second) = lines first ++ [] :: lines second := by
  fun_induction lines first with
  | case1 => exact .inr (lines_lineFeed second)
  | case2 rest inductionHypothesis =>
    rw [List.cons_append, List.cons_append, lines_returnFeed]
    exact inductionHypothesis.imp (congrArg _) (congrArg _)
  | case3 c rest alone boundary inductionHypothesis =>
    by_cases taken : c = '\r' ∧ rest = []
    · obtain ⟨rfl, rfl⟩ := taken
      exact .inl (lines_returnFeed second)
    · have single : c = '\r' → (rest ++ '\n' :: second).head? ≠ some '\n' := by
        rintro isReturn isFeed
        obtain ⟨d, others, rfl⟩ := List.exists_cons_of_ne_nil fun none => taken ⟨isReturn, none⟩
        exact alone others isReturn (congrArg (· :: others) (Option.some.inj isFeed))
      rw [List.cons_append, lines_boundary boundary single]
      exact inductionHypothesis.imp (congrArg _) (congrArg _)
  | case4 c rest alone plain inductionHypothesis =>
    rw [List.cons_append, lines_plain (eq_false_of_ne_true plain)]
    by_cases empty : rest = []
    · subst empty
      exact .inl (congrArg _ (lines_lineFeed second))
    · rw [← pushFirst_append c (mt lines_eq_nil_iff.mp empty),
        ← pushFirst_append c (mt lines_eq_nil_iff.mp empty)]
      exact inductionHypothesis.imp (congrArg _) (congrArg _)

/-- There is no line boundary inside of a line. -/
theorem isLineBoundary_of_mem_lines {text line : Text} (member : line ∈ lines text) {c : Char}
    (inside : c ∈ line) : isLineBoundary c = false := by
  fun_induction lines text generalizing line with
  | case1 => cases member
  | case2 rest inductionHypothesis =>
    rcases List.mem_cons.mp member with rfl | later
    · cases inside
    · exact inductionHypothesis later inside
  | case3 c rest alone boundary inductionHypothesis =>
    rcases List.mem_cons.mp member with rfl | later
    · cases inside
    · exact inductionHypothesis later inside
  | case4 d rest alone plain inductionHypothesis =>
    cases split : lines rest with
    | nil =>
      rw [split] at member
      cases List.mem_singleton.mp member
      cases List.mem_singleton.mp inside
      exact eq_false_of_ne_true plain
    | cons first others =>
      rw [split] at member inductionHypothesis
      rcases List.mem_cons.mp member with rfl | later
      · rcases List.mem_cons.mp inside with rfl | among
        · exact eq_false_of_ne_true plain
        · exact inductionHypothesis List.mem_cons_self among
      · exact inductionHypothesis (List.mem_cons_of_mem first later) inside

/-- A line boundary behind a text without any makes it a line. -/
theorem lines_append_of_plain {part : Text} (plain : ∀ c ∈ part, isLineBoundary c = false)
    (rest : Text) : lines (part ++ '\n' :: rest) = part :: lines rest := by
  induction part with
  | nil => exact lines_lineFeed rest
  | cons c others inductionHypothesis =>
    rw [List.cons_append, lines_plain (plain c List.mem_cons_self),
      inductionHypothesis fun d member => plain d (List.mem_cons_of_mem c member)]
    rfl

theorem lines_of_plain {part : Text} (nonempty : part ≠ [])
    (plain : ∀ c ∈ part, isLineBoundary c = false) : lines part = [part] := by
  induction part with
  | nil => exact absurd rfl nonempty
  | cons c others inductionHypothesis =>
    rw [lines_plain (plain c List.mem_cons_self)]
    by_cases empty : others = []
    · subst empty
      rfl
    · rw [inductionHypothesis empty fun d member => plain d (List.mem_cons_of_mem c member)]
      rfl

/-- Lines with line feeds between them are read as they are. -/
theorem lines_join {parts : List Text} (nonempty : ∀ part ∈ parts, part ≠ [])
    (plain : ∀ part ∈ parts, ∀ c ∈ part, isLineBoundary c = false) :
    lines (join ['\n'] parts) = parts := by
  induction parts with
  | nil => rfl
  | cons part others inductionHypothesis =>
    rw [List.forall_mem_cons] at nonempty plain
    by_cases empty : others = []
    · subst empty
      rw [join_singleton]
      exact lines_of_plain nonempty.1 plain.1
    · rw [join_cons ['\n'] part empty, List.singleton_append, lines_append_of_plain plain.1,
        inductionHypothesis nonempty.2 plain.2]

end Text

/-! ### What a line defines -/

namespace Abbreviations

/-- A line defines an abbreviation if it has a bracket in front and another one behind it, with
something other than blanks in between. -/
theorem readLine_eq_entry_iff {line name text : Text} :
    readLine line = .entry name text ↔
      ∃ inside rest, Text.strip line = '[' :: (inside ++ ']' :: rest) ∧ ']' ∉ inside ∧
        Text.strip inside = name ∧ name ≠ [] ∧ Text.strip rest = text := by
  constructor
  · intro read
    unfold readLine at read
    split at read
    · rename_i behind stripped
      split at read
      · cases read
      · rename_i bracket rest found
        have longest := Scan.longest_takeWhile (· != ']') behind
        have isBracket : bracket = ']' := by
          simpa [found] using longest.stop bracket
        dsimp only at read
        split at read
        · cases read
        · rename_i named
          cases read
          refine ⟨_, rest, ?_, fun member => ?_, rfl, mt List.isEmpty_iff.mpr named, rfl⟩
          · rw [stripped, ← congrArg (· :: rest) isBracket, ← found,
              List.takeWhile_append_dropWhile]
          · exact absurd (longest.all _ member) (by decide)
    · cases read
  · rintro ⟨inside, rest, stripped, noBracket, rfl, named, rfl⟩
    have longest : Scan.Longest (· != ']') inside (']' :: rest) := by
      refine ⟨fun c member => ?_, fun c isHead => ?_⟩
      · exact bne_iff_ne.mpr fun same => noBracket (same ▸ member)
      · cases isHead
        rfl
    rw [readLine, stripped]
    simp only [longest.dropWhile_append, longest.takeWhile_append, List.isEmpty_iff, if_neg named]

/-- What the lines of a text define, one after the other. -/
def definitions (text : Text) : List (Text × Text) :=
  (Text.lines text).filterMap fun line => (readLine line).definition?

theorem parse_eq_ofList (text : Text) : parse text = ofList (definitions text) := rfl

theorem definition?_eq_some_iff {reading : LineReading} {name text : Text} :
    reading.definition? = some (name, text) ↔ reading = .entry name text := by
  cases reading <;> simp [LineReading.definition?]

/-- A line feed between two texts keeps their definitions apart. -/
theorem definitions_append_lineFeed (first second : Text) :
    definitions (first ++ '\n' :: second) = definitions first ++ definitions second := by
  unfold definitions
  rcases Text.lines_append_lineFeed first second with same | same
  · rw [same, List.filterMap_append]
  · rw [same, List.filterMap_append]
    -- The empty line in between defines nothing.
    rfl

theorem parse_append_lineFeed (first second : Text) :
    parse (first ++ '\n' :: second) = (parse first).merge (parse second) := by
  rw [parse_eq_ofList, definitions_append_lineFeed, ofList, OrderedMap.ofList_append]
  rfl

/-- Files one behind the other define what their tables laid over one another hold, and laying
tables over one another is associative, with the table that is empty as identity. -/
theorem parse_append_and_merge_laws (first second : Text) (lower middle upper : Abbreviations) :
    parse (first ++ '\n' :: second) = (parse first).merge (parse second) ∧
      (lower.merge middle).merge upper = lower.merge (middle.merge upper) ∧
      empty.merge lower = lower ∧ lower.merge empty = lower :=
  ⟨parse_append_lineFeed first second,
    congrArg mk (OrderedMap.merge_assoc lower.table middle.table upper.table),
    congrArg mk (OrderedMap.empty_merge lower.table),
    congrArg mk (OrderedMap.merge_empty lower.table)⟩

/-! ### Tables as files -/

/-- An abbreviation that a line can hold. -/
structure Writable (name text : Text) : Prop where
  named : name ≠ []
  bare : ']' ∉ name
  nameStripped : Text.strip name = name
  textStripped : Text.strip text = text
  nameOneLine : ∀ c ∈ name, Text.isLineBoundary c = false
  textOneLine : ∀ c ∈ text, Text.isLineBoundary c = false

/-- No name comes twice, and a line can hold each of the abbreviations. -/
structure Printable (abbreviations : Abbreviations) : Prop where
  distinct : (abbreviations.toList.map Prod.fst).Nodup
  writable : ∀ name text, (name, text) ∈ abbreviations.toList → Writable name text

/-- An abbreviation as a line. -/
def lineOf (name text : Text) : Text := '[' :: name ++ "] ".toList ++ text

/-- Abbreviations as lines. -/
def listingLines (abbreviations : Abbreviations) : List Text :=
  abbreviations.toList.map fun (name, text) => lineOf name text

/-- Abbreviations as a file. -/
def listing (abbreviations : Abbreviations) : Text := Text.join ['\n'] abbreviations.listingLines

/-- What a line of a file defines can be held by a line. -/
theorem writable_of_readLine {line name text : Text}
    (oneLine : ∀ c ∈ line, Text.isLineBoundary c = false)
    (read : readLine line = .entry name text) : Writable name text := by
  obtain ⟨inside, rest, stripped, noBracket, rfl, named, rfl⟩ := readLine_eq_entry_iff.mp read
  have inLine : '[' :: (inside ++ ']' :: rest) <:+: line :=
    stripped ▸ Text.stripWith_infix Text.isBlank line
  have nameInLine : inside <:+: line := .trans ⟨['['], ']' :: rest, by simp⟩ inLine
  have textInLine : rest <:+: line := .trans ⟨'[' :: inside ++ [']'], [], by simp⟩ inLine
  have namePart := Text.stripWith_infix Text.isBlank inside
  have textPart := Text.stripWith_infix Text.isBlank rest
  exact {
    named
    bare := fun member => noBracket (namePart.subset member)
    nameStripped := Text.stripWith_stripWith Text.isBlank inside
    textStripped := Text.stripWith_stripWith Text.isBlank rest
    nameOneLine := fun c member => oneLine c (nameInLine.subset (namePart.subset member))
    textOneLine := fun c member => oneLine c (textInLine.subset (textPart.subset member)) }

/-- A line that was written for an abbreviation defines it. If the text is empty, the blank in front
of it is at the end of the line and does not count either. -/
theorem readLine_lineOf {name text : Text} (writable : Writable name text) :
    readLine (lineOf name text) = .entry name text := by
  have trims : Text.Trims Text.isBlank text text := by
    have trims := Text.trims_stripWith Text.isBlank text
    rwa [show Text.stripWith Text.isBlank text = text from writable.textStripped] at trims
  rw [readLine_eq_entry_iff]
  by_cases empty : text = []
  · subst empty
    have whole : Text.Trims Text.isBlank (lineOf name []) ('[' :: (name ++ [']'])) := by
      refine ⟨⟨[], [' '], by simp [lineOf], nofun, List.forall_mem_singleton.mpr rfl⟩, fun c isHead => ?_,
        fun c isLast => ?_⟩
      · cases isHead
        rfl
      · rw [← List.cons_append, List.getLast?_concat] at isLast
        cases isLast
        rfl
    exact ⟨name, [], whole.stripWith_eq, writable.bare, writable.nameStripped, writable.named, rfl⟩
  · have whole :
        Text.Trims Text.isBlank (lineOf name text) ('[' :: (name ++ ']' :: ' ' :: text)) := by
      refine ⟨⟨[], [], by simp [lineOf], nofun, nofun⟩, fun c isHead => ?_, fun c isLast => ?_⟩
      · cases isHead
        rfl
      · refine trims.last c ?_
        rw [← isLast, ← List.getLast?_append_of_ne_nil ('[' :: name ++ "] ".toList) empty]
        simp
    have behind : Text.Trims Text.isBlank (' ' :: text) text :=
      ⟨⟨[' '], [], by simp, List.forall_mem_singleton.mpr rfl, nofun⟩, trims.first, trims.last⟩
    exact ⟨name, _, whole.stripWith_eq, writable.bare, writable.nameStripped, writable.named,
      behind.stripWith_eq⟩

theorem lineOf_ne_nil (name text : Text) : lineOf name text ≠ [] := List.cons_ne_nil _ _

theorem isLineBoundary_of_mem_lineOf {name text : Text} (writable : Writable name text) {c : Char}
    (member : c ∈ lineOf name text) : Text.isLineBoundary c = false := by
  have ends : ∀ c ∈ "] ".toList, Text.isLineBoundary c = false := by
    simp [Text.isLineBoundary]
  rcases List.mem_append.mp member with front | inText
  · rcases List.mem_append.mp front with inName | between
    · rcases List.mem_cons.mp inName with rfl | inName
      · rfl
      · exact writable.nameOneLine c inName
    · exact ends c between
  · exact writable.textOneLine c inText

/-- Everything that a file defines can be printed. -/
theorem printable_parse (text : Text) : (parse text).Printable where
  distinct := (parse text).table.distinct
  writable name expansion member := by
    have among : (name, expansion) ∈ definitions text := OrderedMap.mem_of_mem_entries_ofList member
    obtain ⟨line, inText, defines⟩ := List.mem_filterMap.mp among
    exact writable_of_readLine (fun c => Text.isLineBoundary_of_mem_lines inText)
      (definition?_eq_some_iff.mp defines)

theorem definitions_listing {abbreviations : Abbreviations} (printable : abbreviations.Printable) :
    definitions abbreviations.listing = abbreviations.toList := by
  have lines : Text.lines abbreviations.listing = abbreviations.listingLines := by
    refine Text.lines_join (fun line member => ?_) fun line member c inside => ?_
    · obtain ⟨entry, -, rfl⟩ := List.mem_map.mp member
      exact lineOf_ne_nil entry.1 entry.2
    · obtain ⟨entry, among, rfl⟩ := List.mem_map.mp member
      exact isLineBoundary_of_mem_lineOf (printable.writable entry.1 entry.2 among) inside
  rw [definitions, lines, listingLines, List.filterMap_map]
  refine (List.filterMap_congr fun entry member => ?_).trans List.filterMap_some
  exact definition?_eq_some_iff.mpr
    (readLine_lineOf (printable.writable entry.1 entry.2 member))

theorem parse_listing_of_printable {abbreviations : Abbreviations}
    (printable : abbreviations.Printable) : parse abbreviations.listing = abbreviations := by
  rw [parse_eq_ofList, definitions_listing printable]
  exact congrArg mk (OrderedMap.ofList_entries abbreviations.table)

/-- The abbreviations that can be printed are those that a file can define, and they are read from
what is printed for them, with a line feed at its end or without. -/
theorem printable_iff_parse_listing (text : Text) (abbreviations : Abbreviations) :
    (parse text).Printable ∧ parse (parse text).listing = parse text ∧
      (abbreviations.Printable ↔ parse abbreviations.listing = abbreviations) ∧
      parse (abbreviations.listing ++ ['\n']) = parse abbreviations.listing := by
  refine ⟨printable_parse text, parse_listing_of_printable (printable_parse text),
    ⟨parse_listing_of_printable, fun same => same ▸ printable_parse abbreviations.listing⟩, ?_⟩
  exact parse_append_lineFeed abbreviations.listing []

/-- The form feed ends a line, the second definition of `b` takes the place of the first, and the
last line has no closing bracket. -/
example :
    (parse "[b] x\x0c [a[] y ] \r\n[b]\r[c z".toList).listing = "[b] \n[a[] y ]".toList := by
  decide +kernel

end Abbreviations

end TagExpansion
