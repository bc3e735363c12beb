import TagExpansion.Proofs.TagCharacters
import Mathlib.Data.Nat.Init

/-
This file says what becomes of runs of tag characters that start no tag.

A run is taken off two by two, and each pair becomes a single tag character. What is left of a run
of odd length is one tag character, which is the front of a segment if what follows it is no tag. It
is written again with that segment, so a run comes out half as long, rounded up. The segments that
begin in this way and have a letter next are the ones that are reported.

A segment that began or ended one character off would change the length of the next run. So the
argument goes through a text run by run: only the last run may have nothing behind it, and of every
other one it can be told where its last piece ends.
-/

namespace TagExpansion.Scan

open Tag (Registry)

variable {tags : Registry} {part : Text}

/-! ### Runs of tag characters -/

/-- A run of tag characters, and what follows it up to the next one. -/
structure Stretch where
  count : Nat
  rest : Text
  positive : 0 < count
  plain : tagChar ∉ rest

namespace Stretch

/-- The text that a stretch is. -/
def source (stretch : Stretch) : Text := List.replicate stretch.count tagChar ++ stretch.rest

/-- A stretch with half of its tag characters, rounded up. -/
def halved (stretch : Stretch) : Text :=
  List.replicate ((stretch.count + 1) / 2) tagChar ++ stretch.rest

/-- The letters directly behind a run. -/
def letters (stretch : Stretch) : Text := stretch.rest.takeWhile Char.isAlpha

/-- The name that is looked up in vain: that behind a run of odd length. -/
def unknown? (stretch : Stretch) : Option Text :=
  if stretch.count % 2 = 1 ∧ stretch.letters ≠ [] then some (Text.lower stretch.letters) else none

/-- No tag bears the name behind a run of odd length. -/
def Unnamed (tags : Registry) (stretch : Stretch) : Prop :=
  stretch.count % 2 = 1 → stretch.letters ≠ [] → tags.lookup stretch.letters = none

/-- The pieces of a stretch whose run starts no tag. -/
def pieces (stretch : Stretch) : List Piece :=
  List.replicate (stretch.count / 2) .escape ++
    if stretch.count % 2 = 1 then [.segment (tagChar :: stretch.rest)] else ordinary stretch.rest

end Stretch

/-- A text falls into what comes before the first tag character and stretches. The runs of tag
characters are as long as they can be: only behind the last one may nothing follow. -/
structure Divides (text lead : Text) (stretches : List Stretch) : Prop where
  whole : text = lead ++ stretches.flatMap Stretch.source
  plain : tagChar ∉ lead
  apart : ∀ stretch ∈ stretches.dropLast, stretch.rest ≠ []

theorem forall_mem_dropLast_cons {α : Type} {holds : α → Prop} {first : α} {others : List α} :
    (∀ item ∈ (first :: others).dropLast, holds item) ↔
      (others ≠ [] → holds first) ∧ ∀ item ∈ others.dropLast, holds item := by
  cases others with
  | nil => simp
  | cons second rest => simp [List.dropLast_cons_cons]

/-- Every text falls into stretches. -/
theorem exists_divides (text : Text) : ∃ lead stretches, Divides text lead stretches := by
  induction text with
  | nil => exact ⟨[], [], rfl, List.not_mem_nil, nofun⟩
  | cons c rest inductionHypothesis =>
    obtain ⟨lead, stretches, whole, plain, apart⟩ := inductionHypothesis
    by_cases isTag : c = tagChar
    · subst isTag
      by_cases near : lead = [] ∧ stretches ≠ []
      · -- The run that comes next is one longer.
        obtain ⟨rfl, more⟩ := near
        obtain ⟨next, others, rfl⟩ := List.exists_cons_of_ne_nil more
        refine ⟨[], ⟨next.count + 1, next.rest, Nat.succ_pos _, next.plain⟩ :: others, ?_,
          List.not_mem_nil, ?_⟩
        · rw [whole]
          rfl
        · rw [forall_mem_dropLast_cons] at apart ⊢
          exact apart
      · refine ⟨[], ⟨1, lead, Nat.one_pos, plain⟩ :: stretches, congrArg (tagChar :: ·) whole,
          List.not_mem_nil, ?_⟩
        rw [forall_mem_dropLast_cons]
        exact ⟨fun more empty => near ⟨empty, more⟩, apart⟩
    · refine ⟨c :: lead, stretches, congrArg (c :: ·) whole, ?_, apart⟩
      rw [List.mem_cons, not_or]
      exact ⟨Ne.symm isTag, plain⟩

theorem pieces_run (count : Nat) (plain : tagChar ∉ part)
    (unnamed : count % 2 = 1 → namedTag? tags part = none) :
    pieces tags (List.replicate count tagChar ++ part) =
      List.replicate (count / 2) .escape ++
        if count % 2 = 1 then [.segment (tagChar :: part)] else ordinary part := by
  -- Two tag characters are taken off at a time.
  induction count using Nat.twoStepInduction with
  | zero => exact pieces_of_plain plain
  | one => exact pieces_cons_of_plain plain fun _ => unnamed rfl
  | more count inductionHypothesis _ =>
    rw [Nat.add_mod_right] at unnamed ⊢
    rw [Nat.add_div_right count Nat.two_pos]
    have shorter := inductionHypothesis unnamed
    rw [List.replicate_succ, List.replicate_succ, List.cons_append, List.cons_append, pieces_escape,
      shorter, List.replicate_succ, List.cons_append]

theorem Stretch.pieces_source {stretch : Stretch} (unnamed : stretch.Unnamed tags) :
    Scan.pieces tags stretch.source = stretch.pieces := by
  refine pieces_run stretch.count stretch.plain fun odd => ?_
  rw [namedTag?]
  split
  · rfl
  · rename_i present
    exact unnamed odd (mt List.isEmpty_iff.mpr present)

/-- A stretch in which text follows the run does not take up what is behind it. -/
theorem Stretch.not_open_of_getLast? {stretch : Stretch} (present : stretch.rest ≠ [])
    {piece : Piece} (isLast : piece ∈ stretch.pieces.getLast?) : ¬piece.Open := by
  rw [Stretch.pieces, ordinary_of_ne_nil present] at isLast
  split at isLast
  · rw [List.getLast?_concat, Option.mem_some_iff] at isLast
    subst isLast
    intro lone
    exact present (List.cons.inj lone).2
  · rw [List.getLast?_concat, Option.mem_some_iff] at isLast
    subst isLast
    intro lone
    exact stretch.plain (lone ▸ List.mem_singleton_self _)

theorem resumes_flatMap_source (stretches : List Stretch) :
    Resumes (stretches.flatMap Stretch.source) := by
  cases stretches with
  | nil => exact .inl rfl
  | cons stretch others =>
    obtain ⟨count, isSucc⟩ := Nat.exists_eq_succ_of_ne_zero stretch.positive.ne'
    refine .inr ?_
    rw [List.flatMap_cons, Stretch.source, isSucc]
    rfl

/-- The pieces of a text in which no run starts a tag are those of its stretches. -/
theorem pieces_of_divides {text lead : Text} {stretches : List Stretch}
    (divides : Divides text lead stretches)
    (unnamed : ∀ stretch ∈ stretches, stretch.Unnamed tags) :
    pieces tags text = ordinary lead ++ stretches.flatMap Stretch.pieces := by
  obtain ⟨rfl, plain, apart⟩ := divides
  rw [pieces_plain_append plain (resumes_flatMap_source stretches)]
  congr 1
  induction stretches with
  | nil => exact pieces_of_plain List.not_mem_nil
  | cons stretch others inductionHypothesis =>
    rw [forall_mem_dropLast_cons] at apart
    rw [List.forall_mem_cons] at unnamed
    rw [List.flatMap_cons, List.flatMap_cons, ← Stretch.pieces_source unnamed.1]
    by_cases more : others = []
    · rw [more, List.flatMap_nil, List.flatMap_nil, List.append_nil, List.append_nil]
    · rw [← inductionHypothesis unnamed.2 apart.2]
      refine pieces_append stretch.source (resumes_flatMap_source others) fun piece isLast => ?_
      rw [Stretch.pieces_source unnamed.1] at isLast
      exact Stretch.not_open_of_getLast? (apart.1 more) isLast

/-- A piece that is no tag. -/
def Piece.Tagless : Piece → Prop
  | .tag _ _ _ => False
  | _ => True

/-- What is left of a piece that is no tag, if segments are left as they are. -/
def Piece.left : Piece → Text
  | .escape => [tagChar]
  | piece => piece.source

theorem flatMap_left_ordinary (part : Text) : (ordinary part).flatMap Piece.left = part := by
  unfold ordinary
  split
  · rename_i empty
    exact empty.symm
  · exact List.append_nil part

namespace Stretch

theorem tagless_of_mem_pieces {stretch : Stretch} {piece : Piece}
    (member : piece ∈ stretch.pieces) : piece.Tagless := by
  rw [pieces, List.mem_append, List.mem_replicate] at member
  obtain ⟨-, rfl⟩ | member := member
  · trivial
  · split at member
    · rw [List.mem_singleton.mp member]
      trivial
    · rw [eq_segment_of_mem_ordinary member]
      trivial

theorem flatMap_left_pieces (stretch : Stretch) :
    stretch.pieces.flatMap Piece.left = stretch.halved := by
  have escapes (number : Nat) :
      (List.replicate number Piece.escape).flatMap Piece.left = List.replicate number tagChar := by
    rw [List.flatMap_replicate]
    exact List.flatten_replicate_singleton
  rw [pieces, List.flatMap_append, escapes, halved]
  split
  · rename_i odd
    have half : (stretch.count + 1) / 2 = stretch.count / 2 + 1 := by omega
    rw [half, List.replicate_succ', List.append_assoc]
    exact congrArg _ (congrArg (tagChar :: ·) (List.append_nil _))
  · rename_i even
    have half : (stretch.count + 1) / 2 = stretch.count / 2 := by omega
    rw [half, flatMap_left_ordinary]

theorem filterMap_defect?_pieces (stretch : Stretch) :
    stretch.pieces.filterMap Piece.defect? = (stretch.unknown?.map .unknownTag).toList := by
  have escapes :
      (List.replicate (stretch.count / 2) Piece.escape).filterMap Piece.defect? = [] := by
    rw [List.filterMap_eq_nil_iff]
    intro piece member
    rw [List.eq_of_mem_replicate member]
    rfl
  rw [pieces, List.filterMap_append, escapes, List.nil_append, unknown?]
  by_cases odd : stretch.count % 2 = 1
  · rw [if_pos odd]
    have looksLike : unknownName? (tagChar :: stretch.rest) =
        if stretch.count % 2 = 1 ∧ stretch.letters ≠ [] then some (Text.lower stretch.letters)
        else none := by
      simp [unknownName?, odd, letters]
    rw [← looksLike, ← Engine.defect?_segment]
    cases found : (Piece.segment (tagChar :: stretch.rest)).defect? with
    | none => exact List.filterMap_cons_none found
    | some defect => exact List.filterMap_cons_some found
  · rw [if_neg odd, if_neg fun both => odd both.1, List.filterMap_eq_nil_iff.mpr]
    · rfl
    · intro piece member
      rw [eq_segment_of_mem_ordinary member, Engine.defect?_segment,
        unknownName?_of_plain stretch.plain]
      rfl

end Stretch

/-- What a text has become when every run of tag characters is half as long. -/
def halvedText (lead : Text) (stretches : List Stretch) : Text :=
  lead ++ stretches.flatMap Stretch.halved

/-- A text without tags: its pieces, what is left of them and what is wrong with them. -/
theorem pieces_of_unnamed {text lead : Text} {stretches : List Stretch}
    (divides : Divides text lead stretches)
    (unnamed : ∀ stretch ∈ stretches, stretch.Unnamed tags) :
    (∀ piece ∈ pieces tags text, piece.Tagless) ∧
      (pieces tags text).flatMap Piece.left = halvedText lead stretches ∧
      (pieces tags text).filterMap Piece.defect? =
        (stretches.filterMap Stretch.unknown?).map .unknownTag := by
  rw [pieces_of_divides divides unnamed]
  refine ⟨fun piece member => ?_, ?_, ?_⟩
  · rw [List.mem_append, List.mem_flatMap] at member
    obtain inLead | ⟨stretch, -, inStretch⟩ := member
    · rw [eq_segment_of_mem_ordinary inLead]
      trivial
    · exact Stretch.tagless_of_mem_pieces inStretch
  · rw [List.flatMap_append, flatMap_left_ordinary, List.flatMap_assoc]
    simp only [Stretch.flatMap_left_pieces]
    rfl
  · have silent : (ordinary lead).filterMap Piece.defect? = [] := by
      rw [List.filterMap_eq_nil_iff]
      intro piece member
      rw [eq_segment_of_mem_ordinary member, Engine.defect?_segment,
        unknownName?_of_plain divides.plain]
      rfl
    rw [List.filterMap_append, silent, List.nil_append, List.filterMap_flatMap, List.map_filterMap,
      List.filterMap_eq_flatMap_toList]
    simp only [Stretch.filterMap_defect?_pieces]

end TagExpansion.Scan

namespace TagExpansion.Engine

open Scan (Piece tagChar)

variable {engine : Engine} {nested : Text → Run Text} {depth : Nat}

/-! ### Runs of tag characters come out half as long -/

theorem tells_expandPieces_of_tagless (start : Nat) {pieces : List Piece}
    (tagless : ∀ piece ∈ pieces, piece.Tagless) :
    Run.Tells ((pieces.filterMap Piece.defect?).map (·.report engine))
      (engine.expandPieces nested depth start pieces) := by
  induction pieces generalizing start with
  | nil => exact .of_eq rfl
  | cons piece others inductionHypothesis =>
    rw [List.forall_mem_cons] at tagless
    have first : Run.Tells (piece.defect?.toList.map (·.report engine))
        (engine.expandPiece nested depth start piece) := by
      cases piece with
      | tag definition letters argument => exact tagless.1.elim
      | escape => exact .of_eq rfl
      | segment text =>
        exact (tells_reportSegment engine text).before fun _ => tells_convertSegment engine text
    have split : (piece :: others).filterMap Piece.defect? =
        piece.defect?.toList ++ others.filterMap Piece.defect? := by
      cases found : piece.defect? with
      | none => rw [List.filterMap_cons_none found]; rfl
      | some defect => rw [List.filterMap_cons_some found]; rfl
    rw [split, List.map_append]
    exact first.andThen fun _ => (inductionHypothesis _ tagless.2).map _

theorem eq_of_expandPieces_of_tagless (converts : engine.convert = .always id)
    (inserts : engine.setParagraphs = .always id) (start : Nat) {pieces : List Piece}
    (tagless : ∀ piece ∈ pieces, piece.Tagless) {result : Text}
    (ended : (engine.expandPieces nested depth start pieces).outcome = .ok result) :
    result = pieces.flatMap Piece.left := by
  induction pieces generalizing start result with
  | nil =>
    cases ended
    rfl
  | cons piece others inductionHypothesis =>
    rw [List.forall_mem_cons] at tagless
    rw [expandPieces, Journal.outcome_andThen_eq_ok_iff] at ended
    obtain ⟨first, here, later⟩ := ended
    rw [Journal.map_eq_andThen, Journal.outcome_andThen_eq_ok_iff] at later
    obtain ⟨rest, behind, same⟩ := later
    cases same
    rw [List.flatMap_cons, inductionHypothesis _ tagless.2 behind]
    congr 1
    cases piece with
    | tag definition letters argument => exact tagless.1.elim
    | escape =>
      cases here
      rfl
    | segment text =>
      obtain ⟨_, -, converted⟩ := Journal.outcome_andThen_eq_ok_iff.mp here
      rw [outcome_convertSegment, converts, inserts] at converted
      cases converted
      rfl

theorem calls_expand_of_tagless {text : Text}
    (tagless : ∀ piece ∈ Scan.pieces engine.tags text, piece.Tagless) :
    (engine.expand text).calls = [] := by
  refine unread_expand ⟨rfl, rfl⟩ (unread_expandPieces 0 fun piece member start => ?_)
  cases piece with
  | tag definition letters argument => exact (tagless _ member).elim
  | escape => rfl
  | segment text =>
    refine unread_segment start (fun _ => ⟨rfl, rfl⟩) ?_
    unfold reportSegment
    split
    · exact calls_handOver engine _
    · rfl

/-- If the adapters leave everything as it is, an expansion that calls no handler fails only where
the sink does. -/
theorem exists_report_of_uncalled (converts : engine.convert = .always id)
    (inserts : engine.setParagraphs = .always id) {text : Text}
    (uncalled : (engine.expand text).calls = []) {fault : Fault}
    (failed : (engine.expand text).outcome = .error fault) :
    ∃ report ∈ (engine.expand text).reports, (engine.sink report).outcome = .error fault := by
  cases excused_expandAt engine 0 text fault failed with
  | handler member known name isHandler raises =>
    have called := Run.mem_calls_iff.mpr member
    rw [← expand, uncalled] at called
    cases called
  | sink member raises => exact ⟨_, Run.mem_reports_iff.mpr member, raises⟩
  | converter member raises =>
    rw [converts] at raises
    cases raises
  | paragraphs member raises =>
    rw [inserts] at raises
    cases raises

theorem tells_expand_of_tagless {text : Text}
    (tagless : ∀ piece ∈ Scan.pieces engine.tags text, piece.Tagless) :
    Run.Tells (((Scan.pieces engine.tags text).filterMap Piece.defect?).map (·.report engine))
      (engine.expand text) := by
  rw [expand, expandAt_of_lt engine engine.maxDepth_pos]
  exact (tells_expandPieces_of_tagless 0 tagless).enclose

/-- A text without tags comes out if the sink heeds what is wrong with it. -/
theorem outcome_expand_of_tagless (converts : engine.convert = .always id)
    (inserts : engine.setParagraphs = .always id) {text : Text}
    (tagless : ∀ piece ∈ Scan.pieces engine.tags text, piece.Tagless)
    (heeds : ∀ defect ∈ (Scan.pieces engine.tags text).filterMap Piece.defect?,
      (engine.sink (defect.report engine)).outcome = .ok ()) :
    (engine.expand text).outcome =
      .ok ((Scan.pieces engine.tags text).flatMap Piece.left) := by
  cases ended : (engine.expand text).outcome with
  | ok result =>
    rw [expand, expandAt_of_lt engine engine.maxDepth_pos, Journal.outcome_enclose] at ended
    rw [eq_of_expandPieces_of_tagless converts inserts 0 tagless ended]
  | error fault =>
    obtain ⟨report, member, raises⟩ :=
      exists_report_of_uncalled converts inserts (calls_expand_of_tagless tagless) ended
    obtain ⟨defect, isDefect, rfl⟩ :=
      List.mem_map.mp ((tells_expand_of_tagless tagless).start.subset member)
    rw [heeds defect isDefect] at raises
    cases raises

/-- Where no run of tag characters of odd length stands before a name of a tag, a text keeps all but
half of its tag characters, rounded down for each run. No handler is called. The names behind runs
of odd length are reported, each once and in their order, and only the sink can keep the text from
coming out. -/
theorem expand_of_unnamed (engine : Engine) (converts : engine.convert = .always id)
    (inserts : engine.setParagraphs = .always id) (text : Text) :
    (∃ lead stretches, Scan.Divides text lead stretches) ∧
    ∀ lead stretches, Scan.Divides text lead stretches →
      (∀ stretch ∈ stretches, stretch.Unnamed engine.tags) →
        let names := stretches.filterMap Scan.Stretch.unknown?
        (engine.expand text).calls = [] ∧
        ((∀ name ∈ names, (engine.sink (unknownTag name)).outcome = .ok ()) →
          (engine.expand text).outcome = .ok (Scan.halvedText lead stretches) ∧
          (engine.expand text).reports = names.map unknownTag) ∧
        (engine.sink = .collect →
          (engine.expand text).outcome = .ok (Scan.halvedText lead stretches) ∧
          (engine.expand text).diagnostics = names.map fun name =>
            ⟨.unknownTag, "Unknown tag name \"".toList ++ name ++ "\"".toList, 1⟩) ∧
        ∀ fault, (engine.expand text).outcome = .error fault →
          (engine.expand text).reports <+: names.map unknownTag ∧
          ∃ report ∈ (engine.expand text).reports, (engine.sink report).outcome = .error fault := by
  refine ⟨Scan.exists_divides text, fun lead stretches divides unnamed => ?_⟩
  intro names
  obtain ⟨tagless, left, defects⟩ := Scan.pieces_of_unnamed divides unnamed
  have calls := calls_expand_of_tagless tagless
  have tells := tells_expand_of_tagless tagless
  have heeded := outcome_expand_of_tagless converts inserts tagless
  have told : (names.map Defect.unknownTag).map (·.report engine) = names.map unknownTag :=
    List.map_map
  rw [defects, left, List.forall_mem_map] at heeded
  rw [defects] at tells
  refine ⟨calls, fun heeds => ⟨heeded heeds, ?_⟩, fun collects => ?_, fun fault failed => ?_⟩
  · rw [← told]
    exact tells.whole (heeded heeds)
  · have ended := heeded fun name _ => by
      rw [collects]
      exact outcome_collect_report engine (.unknownTag name)
    refine ⟨ended, ?_⟩
    rw [expand, diagnostics_expandAt collects, ← expand, tells.whole ended,
      filterMap_diagnosis?_map_report, List.map_map]
    rfl
  · rw [← told]
    exact ⟨tells.start, exists_report_of_uncalled converts inserts calls failed⟩

/-- Three runs: one of odd length before a name that no tag bears, one of even length before the
name of a tag, and one at the end of the text. -/
theorem expand_of_unnamed_runs :
    let engine : Engine := { tags := .builtin .plain, sink := .collect }
    let text := "a@@@no b@@@@bold(x)@".toList
    let stretches : List Scan.Stretch := [⟨3, "no b".toList, by decide, by decide⟩,
      ⟨4, "bold(x)".toList, by decide, by decide⟩, ⟨1, [], by decide, by decide⟩]
    Scan.Divides text ['a'] stretches ∧
      (∀ stretch ∈ stretches, stretch.Unnamed engine.tags) ∧
      (engine.expand text).outcome = .ok "a@@no b@@bold(x)@".toList ∧
      (engine.expand text).diagnostics =
        [⟨.unknownTag, "Unknown tag name \"no\"".toList, 1⟩] := by
  intro engine text stretches
  have divides : Scan.Divides text ['a'] stretches := ⟨by decide, by decide, by decide⟩
  have unnamed : ∀ stretch ∈ stretches, stretch.Unnamed engine.tags := by
    unfold Scan.Stretch.Unnamed
    decide +kernel
  obtain ⟨-, -, taken, -⟩ := (expand_of_unnamed engine rfl rfl text).2 _ _ divides unnamed
  exact ⟨divides, unnamed, taken rfl⟩

end TagExpansion.Engine
