import TagExpansion.Proofs.Defects
import TagExpansion.Proofs.Seam

/-
This file says what becomes of a text whose tag characters are all doubled.

At each tag character a name is looked for first. Behind the first of two tag characters there is
none, so both together are an escape, and the text goes on behind them. What stands between the tag
characters of the original text is therefore read part by part, whatever it is: nothing in it is
taken for a tag, and nothing looks like one. An escape becomes a single tag character, and the parts
are converted, each on its own.
-/

namespace TagExpansion.Scan

open Tag (Registry)

/-! ### Texts without a tag character -/

/-- The pieces of a text without a tag character. -/
def ordinary (part : Text) : List Piece := if part = [] then [] else [.segment part]

@[simp] theorem ordinary_nil : ordinary [] = [] := rfl

theorem ordinary_of_ne_nil {part : Text} (present : part ≠ []) : ordinary part = [.segment part] :=
  if_neg present

variable {tags : Registry} {part : Text}

theorem ne_tagChar_of_plain (plain : tagChar ∉ part) : ∀ c ∈ part, (c != tagChar) = true := by
  intro c member
  rw [bne_iff_ne]
  rintro rfl
  exact plain member

/-- A segment goes on to the end of the text if no tag character is left. -/
theorem readSegment_of_plain (c : Char) (plain : tagChar ∉ part) :
    readSegment c part = (.segment (c :: part), []) := by
  have all := ne_tagChar_of_plain plain
  have longest : Longest (· != tagChar) part [] := ⟨all, nofun⟩
  have taken := longest.takeWhile_append
  have dropped := longest.dropWhile_append
  rw [List.append_nil] at taken dropped
  rw [readSegment, taken, dropped]

/-- A character is the front of a segment if no tag starts with it and no tag character is left. -/
theorem pieces_cons_of_plain {c : Char} (plain : tagChar ∉ part)
    (noTag : c = tagChar → namedTag? tags part = none) :
    pieces tags (c :: part) = [.segment (c :: part)] := by
  have noEscape : part.head? ≠ some tagChar := fun isHead => plain (List.mem_of_head? isHead)
  have begins : Begins tags (c :: part) _ _ := begins_readSegment noTag fun _ => noEscape
  rw [pieces, readPiece_of_begins begins, readSegment_of_plain c plain, pieces]

theorem pieces_of_plain (plain : tagChar ∉ part) : pieces tags part = ordinary part := by
  cases part with
  | nil => rw [pieces, ordinary_nil]
  | cons c rest =>
    rw [List.mem_cons, not_or] at plain
    exact pieces_cons_of_plain plain.2 fun same => absurd same.symm plain.1

/-- Two tag characters are an escape, whatever follows. -/
theorem pieces_escape (rest : Text) :
    pieces tags (tagChar :: tagChar :: rest) = .escape :: pieces tags rest := by
  rw [pieces, readPiece_of_begins (Begins.escape : Begins tags _ _ rest)]

/-- What is ordinary does not look like a tag. -/
theorem unknownName?_of_plain (plain : tagChar ∉ part) : unknownName? part = none := by
  cases part with
  | nil => rfl
  | cons c rest =>
    have notTag : c ≠ tagChar := fun same => plain (same ▸ List.mem_cons_self)
    simp [unknownName?, notTag]

theorem eq_segment_of_mem_ordinary {piece : Piece} (member : piece ∈ ordinary part) :
    piece = .segment part := by
  unfold ordinary at member
  split at member
  · cases member
  · exact List.mem_singleton.mp member

/-- What is before a tag character and free of others is read on its own. -/
theorem pieces_plain_append (plain : tagChar ∉ part) {rest : Text} (resumes : Resumes rest) :
    pieces tags (part ++ rest) = ordinary part ++ pieces tags rest := by
  rw [← pieces_of_plain plain]
  refine pieces_append part resumes fun piece isLast => ?_
  have member := List.mem_of_getLast? isLast
  rw [pieces_of_plain plain] at member
  rw [eq_segment_of_mem_ordinary member]
  rintro rfl
  exact plain (List.mem_singleton_self _)

/-! ### Doubled tag characters -/

/-- Writes every tag character twice. -/
def doubled (text : Text) : Text :=
  text.flatMap fun c => if c = tagChar then [tagChar, tagChar] else [c]

/-- A text is gone through from one tag character to the next. -/
theorem parts_induction {motive : Text → Prop}
    (last : ∀ part, tagChar ∉ part → motive part)
    (cut : ∀ part rest, tagChar ∉ part → motive rest → motive (part ++ tagChar :: rest))
    (text : Text) : motive text := by
  -- What has been passed over since the last tag character is carried along.
  have fromPart (text : Text) : ∀ part, tagChar ∉ part → motive (part ++ text) := by
    induction text with
    | nil =>
      intro part plain
      rw [List.append_nil]
      exact last part plain
    | cons c rest inductionHypothesis =>
      intro part plain
      by_cases isTag : c = tagChar
      · rw [isTag]
        exact cut part rest plain (inductionHypothesis [] List.not_mem_nil)
      · rw [List.append_cons]
        refine inductionHypothesis (part ++ [c]) ?_
        rw [List.mem_append, List.mem_singleton, not_or]
        exact ⟨plain, Ne.symm isTag⟩
  exact fromPart text [] List.not_mem_nil

theorem doubled_of_plain (plain : tagChar ∉ part) : doubled part = part := by
  induction part with
  | nil => rfl
  | cons c rest inductionHypothesis =>
    rw [List.mem_cons, not_or] at plain
    rw [doubled, List.flatMap_cons, if_neg (Ne.symm plain.1)]
    exact congrArg (c :: ·) (inductionHypothesis plain.2)

theorem doubled_append (plain : tagChar ∉ part) (rest : Text) :
    doubled (part ++ tagChar :: rest) = part ++ tagChar :: tagChar :: doubled rest := by
  have front := doubled_of_plain plain
  unfold doubled at front ⊢
  rw [List.flatMap_append, front, List.flatMap_cons, if_pos rfl]
  rfl

theorem splitOn_append (plain : tagChar ∉ part) (rest : Text) :
    (part ++ tagChar :: rest).splitOn tagChar = part :: rest.splitOn tagChar := by
  rw [List.splitOn_append_cons_self, List.splitOn_eq_singleton plain]
  rfl

theorem pieces_doubled_of_plain (plain : tagChar ∉ part) :
    pieces tags (doubled part) = ordinary part := by
  rw [doubled_of_plain plain, pieces_of_plain plain]

theorem pieces_doubled_append (plain : tagChar ∉ part) (rest : Text) :
    pieces tags (doubled (part ++ tagChar :: rest)) =
      ordinary part ++ .escape :: pieces tags (doubled rest) := by
  rw [doubled_append plain, pieces_plain_append plain (.inr rfl), pieces_escape]

/-- A text whose tag characters are doubled has no tags, and nothing that looks like one. -/
theorem mem_pieces_doubled {text : Text} {piece : Piece}
    (member : piece ∈ pieces tags (doubled text)) :
    piece = .escape ∨ ∃ part, tagChar ∉ part ∧ piece = .segment part := by
  induction text using parts_induction with
  | last part plain =>
    rw [pieces_doubled_of_plain plain] at member
    exact .inr ⟨part, plain, eq_segment_of_mem_ordinary member⟩
  | cut part rest plain inductionHypothesis =>
    rw [pieces_doubled_append plain, List.mem_append, List.mem_cons] at member
    obtain inPart | isEscape | inRest := member
    · exact .inr ⟨part, plain, eq_segment_of_mem_ordinary inPart⟩
    · exact .inl isEscape
    · exact inductionHypothesis inRest

end TagExpansion.Scan

namespace TagExpansion

/-! ### Runs in which something does not occur -/

/-- Nothing is read off the events of a run. -/
def Run.Unread {α γ : Type} (read : Event → Option γ) (run : Run α) : Prop :=
  run.entries.filterMap read = []

theorem Run.Unread.andThen {α β γ : Type} {read : Event → Option γ} {first : Run α}
    {next : α → Run β} (before : Unread read first) (after : ∀ value, Unread read (next value)) :
    Unread read (first.andThen next) := by
  unfold Unread at before after ⊢
  cases ended : first.outcome with
  | ok value => rw [Journal.andThen_of_ok ended, List.filterMap_append, before, after value]; rfl
  | error fault => rwa [Journal.andThen_of_error ended]

namespace Engine

open Scan (Piece tagChar)
open Run (Unread)

variable {engine : Engine} {nested : Text → Run Text} {depth : Nat}

section Unread

variable {γ : Type} {read : Event → Option γ}

theorem unread_segment (start : Nat)
    (silent : ∀ text, read (.converted text) = none ∧ read (.arranged text) = none) {text : Text}
    (reported : Unread read (engine.reportSegment text)) :
    Unread read (engine.expandPiece nested depth start (.segment text)) :=
  reported.andThen fun _ => filterMap_entries_convertSegment engine read silent text

theorem unread_expandPieces (start : Nat) {pieces : List Piece}
    (each : ∀ piece ∈ pieces, ∀ start,
      Unread read (engine.expandPiece nested depth start piece)) :
    Unread read (engine.expandPieces nested depth start pieces) := by
  induction pieces generalizing start with
  | nil => rfl
  | cons piece others inductionHypothesis =>
    rw [List.forall_mem_cons] at each
    refine (each.1 start).andThen fun first => ?_
    exact inductionHypothesis _ each.2

/-- The marks of an expansion apart, what is read off its events is read off those of its
pieces. -/
theorem unread_expand (marks : read .entered = none ∧ read .left = none) {text : Text}
    (inside : Unread read (engine.expandPieces (engine.expandAt 1) 1 0
      (Scan.pieces engine.tags text))) : Unread read (engine.expand text) := by
  unfold Unread at inside ⊢
  rw [expand, expandAt_of_lt engine engine.maxDepth_pos, Journal.entries_enclose,
    List.cons_append, List.filterMap_cons_none marks.1, List.filterMap_append, inside,
    List.filterMap_cons_none marks.2]
  rfl

end Unread

/-! ### Doubled tag characters come out single -/

/-- What ordinary text becomes. Where there is none, nothing does. -/
def rendered (engine : Engine) (part : Text) : Except Fault Text :=
  if part = [] then .ok [] else engine.convert part >>= engine.setParagraphs

theorem reportSegment_of_plain {part : Text} (plain : tagChar ∉ part) :
    engine.reportSegment part = .done () := by
  rw [reportSegment, Scan.unknownName?_of_plain plain]

/-- Ordinary text is rendered, and what follows it comes behind, wherever that stands. -/
theorem outcome_expandPieces_ordinary (engine : Engine) (nested : Text → Run Text) (depth : Nat)
    {part : Text} (plain : tagChar ∉ part) (start : Nat) (others : List Piece) :
    ∃ later, (engine.expandPieces nested depth start (Scan.ordinary part ++ others)).outcome =
      engine.rendered part >>= fun first =>
        (first ++ ·) <$> (engine.expandPieces nested depth later others).outcome := by
  by_cases empty : part = []
  · refine ⟨start, ?_⟩
    rw [empty, rendered, if_pos rfl]
    exact (id_map _).symm
  · refine ⟨start + part.length, ?_⟩
    have segment : engine.expandPiece nested depth start (.segment part) =
        engine.convertSegment part := by
      show (engine.reportSegment part).andThen _ = _
      rw [reportSegment_of_plain plain, Journal.done_andThen]
    rw [Scan.ordinary_of_ne_nil empty, rendered, if_neg empty, List.singleton_append, expandPieces,
      segment, Journal.outcome_andThen, outcome_convertSegment]
    rfl

/-- To render parts with a tag character between them is to render the first part, and then the
others behind a tag character. -/
theorem join_mapM_cons (render : Text → Except Fault Text) (part : Text) {others : List Text}
    (more : others ≠ []) :
    Text.join [tagChar] <$> (part :: others).mapM render = render part >>= fun first =>
      (fun rest => first ++ tagChar :: rest) <$> (Text.join [tagChar] <$> others.mapM render) := by
  obtain ⟨next, behind, rfl⟩ := List.exists_cons_of_ne_nil more
  rw [List.mapM_cons, List.mapM_cons]
  cases render part with
  | error fault => rfl
  | ok first =>
    cases render next with
    | error fault => rfl
    | ok second =>
      cases behind.mapM render with
      | error fault => rfl
      | ok rest =>
        show Except.ok (List.intercalate [tagChar] (first :: second :: rest)) = _
        rw [List.intercalate_cons_cons, List.append_assoc]
        rfl

theorem outcome_expandPieces_doubled (engine : Engine) (nested : Text → Run Text) (depth : Nat)
    (start : Nat) (text : Text) :
    (engine.expandPieces nested depth start
        (Scan.pieces engine.tags (Scan.doubled text))).outcome =
      Text.join [tagChar] <$> (text.splitOn tagChar).mapM engine.rendered := by
  induction text using Scan.parts_induction generalizing start with
  | last part plain =>
    obtain ⟨later, alone⟩ :=
      outcome_expandPieces_ordinary engine nested depth plain start []
    rw [List.append_nil] at alone
    rw [Scan.pieces_doubled_of_plain plain, alone, List.splitOn_eq_singleton plain, List.mapM_cons]
    cases engine.rendered part with
    | error fault => rfl
    | ok first =>
      show Except.ok (first ++ []) = Except.ok (List.intercalate [tagChar] [first])
      rw [List.append_nil, List.intercalate_singleton]
  | cut part rest plain inductionHypothesis =>
    obtain ⟨later, front⟩ := outcome_expandPieces_ordinary engine nested depth plain start
      (.escape :: Scan.pieces engine.tags (Scan.doubled rest))
    have escape : (engine.expandPieces nested depth later
        (.escape :: Scan.pieces engine.tags (Scan.doubled rest))).outcome =
          ([tagChar] ++ ·) <$>
            (Text.join [tagChar] <$> (rest.splitOn tagChar).mapM engine.rendered) := by
      rw [← inductionHypothesis]
      rfl
    rw [Scan.pieces_doubled_append plain, front, escape, Scan.splitOn_append plain,
      join_mapM_cons _ _ (List.splitOn_ne_nil _ _)]
    simp only [Functor.map_map]
    rfl

theorem outcome_expand_doubled (engine : Engine) (text : Text) :
    (engine.expand (Scan.doubled text)).outcome =
      Text.join [tagChar] <$> (text.splitOn tagChar).mapM engine.rendered := by
  rw [expand, expandAt_of_lt engine engine.maxDepth_pos, Journal.outcome_enclose]
  exact outcome_expandPieces_doubled engine _ _ 0 text

/-- Of doubled tag characters nothing is seen but what the adapters get. -/
theorem unread_expand_doubled (engine : Engine) (text : Text) {γ : Type} {read : Event → Option γ}
    (marks : read .entered = none ∧ read .left = none)
    (adapted : ∀ text, read (.converted text) = none ∧ read (.arranged text) = none) :
    Unread read (engine.expand (Scan.doubled text)) := by
  refine unread_expand marks (unread_expandPieces 0 fun piece member start => ?_)
  obtain rfl | ⟨part, plain, rfl⟩ := Scan.mem_pieces_doubled member
  · rfl
  · refine unread_segment start adapted ?_
    rw [reportSegment_of_plain plain]
    rfl

theorem outcome_expand_doubled_of_always {convert insert : Text → Text}
    (converts : engine.convert = .always convert) (inserts : engine.setParagraphs = .always insert)
    (text : Text) :
    (engine.expand (Scan.doubled text)).outcome =
      .ok (Text.join [tagChar] ((text.splitOn tagChar).map fun part =>
        if part = [] then [] else insert (convert part))) := by
  have rendered : engine.rendered = fun part =>
      pure (if part = [] then [] else insert (convert part)) := by
    funext part
    rw [Engine.rendered, converts, inserts]
    split <;> rfl
  rw [outcome_expand_doubled, rendered, List.mapM_pure]
  rfl

/-- Below the limit a text without a tag character is converted as a whole. -/
theorem expandAt_of_plain (engine : Engine) {depth : Nat} (below : depth < engine.maxDepth)
    {text : Text} (present : text ≠ []) (plain : tagChar ∉ text) :
    engine.expandAt depth text = (engine.convertSegment text).enclose .entered .left := by
  have alone : engine.expandPieces (engine.expandAt (depth + 1)) (depth + 1) 0 [.segment text] =
      engine.convertSegment text := by
    show ((engine.reportSegment text).andThen _).andThen (fun first => .done (first ++ [])) = _
    simp only [reportSegment_of_plain plain, Journal.done_andThen, List.append_nil]
    exact Journal.andThen_done _
  rw [expandAt_of_lt engine below, Scan.pieces_of_plain plain, Scan.ordinary_of_ne_nil present,
    alone]

/-- A text whose tag characters are doubled comes out as it was before, with its parts rendered.
Nothing is reported and no handler is called. A text that has no tag characters is converted once,
as a whole. -/
theorem expand_doubled (engine : Engine) (text : Text) :
    (engine.expand (Scan.doubled text)).outcome =
        Text.join [tagChar] <$> (text.splitOn tagChar).mapM engine.rendered ∧
      (engine.expand (Scan.doubled text)).calls = [] ∧
      (engine.expand (Scan.doubled text)).reports = [] ∧
      (engine.expand (Scan.doubled text)).diagnostics = [] ∧
      (∀ convert insert, engine.convert = .always convert → engine.setParagraphs = .always insert →
        (engine.expand (Scan.doubled text)).outcome = .ok (Text.join [tagChar]
          ((text.splitOn tagChar).map fun part =>
            if part = [] then [] else insert (convert part)))) ∧
      (engine.convert = .always id → engine.setParagraphs = .always id →
        (engine.expand (Scan.doubled text)).outcome = .ok text) ∧
      (text ≠ [] → tagChar ∉ text →
        engine.expand text = (engine.convertSegment text).enclose .entered .left ∧
        (engine.expand text).outcome = engine.convert text >>= engine.setParagraphs) := by
  refine ⟨outcome_expand_doubled engine text, ?_, ?_, ?_, ?_, ?_, ?_⟩
  · exact unread_expand_doubled engine text ⟨rfl, rfl⟩ fun _ => ⟨rfl, rfl⟩
  · exact unread_expand_doubled engine text ⟨rfl, rfl⟩ fun _ => ⟨rfl, rfl⟩
  · exact unread_expand_doubled engine text ⟨rfl, rfl⟩ fun _ => ⟨rfl, rfl⟩
  · intro convert insert converts inserts
    exact outcome_expand_doubled_of_always converts inserts text
  · intro converts inserts
    have kept : (fun part : Text => if part = [] then [] else id (id part)) = id := by
      funext part
      split
      · rename_i empty
        exact empty.symm
      · rfl
    rw [outcome_expand_doubled_of_always converts inserts, kept, List.map_id, Text.join,
      List.intercalate_splitOn]
  · intro present plain
    have alone : engine.expand text = (engine.convertSegment text).enclose .entered .left :=
      engine.expandAt_of_plain engine.maxDepth_pos present plain
    refine ⟨alone, ?_⟩
    rw [alone, Journal.outcome_enclose, outcome_convertSegment]

/-- A tag and a run of tag characters at the end of a text. -/
theorem expand_doubled_of_bold :
    let engine : Engine := { tags := .builtin .plain }
    Scan.doubled "@bold(x)@@".toList = "@@bold(x)@@@@".toList ∧
      (engine.expand "@@bold(x)@@@@".toList).outcome = .ok "@bold(x)@@".toList ∧
      (engine.expand "bold(x)".toList).outcome = .ok "bold(x)".toList := by
  intro engine
  have twice : Scan.doubled "@bold(x)@@".toList = "@@bold(x)@@@@".toList := by decide
  have back := (expand_doubled engine "@bold(x)@@".toList).2.2.2.2.2.1 rfl rfl
  have once := ((expand_doubled engine "bold(x)".toList).2.2.2.2.2.2 (by decide) (by decide)).2
  rw [twice] at back
  exact ⟨twice, back, once⟩

end Engine

end TagExpansion
