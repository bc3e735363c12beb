import TagExpansion.Proofs.Expansion
import TagExpansion.Proofs.Parenthesis
import TagExpansion.Proofs.Registry
import Mathlib.Data.List.Forall2
import Mathlib.Data.List.TakeWhile

/-
This file says how a text falls into pieces without a word about how it is read.

What stands at the front of a text is a tag, an escape or a segment. Each is described
by how the text is written there: a name is the longest run of letters behind a tag
character, a parenthesis ends where it is balanced, a line ends at the first line break
and a segment at the next tag character. Where neither a registered name nor a second
tag character follows, a tag character is the front of a segment. The descriptions
exclude one another, so they determine the piece, and the reader finds it.

The pieces of a text then tile it: each begins where the one before it ends, the first
at the front of the text and the last up to its end. The expansion of a text is what its
tiles become, written one after the other.
-/

namespace TagExpansion.Scan

open Tag (Definition Registry)

/-! ### Longest runs -/

/-- `front` is the longest start of `front ++ back` all of whose characters are of a class. -/
structure Longest (isOf : Char → Bool) (front back : Text) : Prop where
  all : ∀ c ∈ front, isOf c = true
  stop : ∀ c, back.head? = some c → isOf c = false

theorem longest_takeWhile (isOf : Char → Bool) (text : Text) :
    Longest isOf (text.takeWhile isOf) (text.dropWhile isOf) := by
  refine ⟨fun c member => List.mem_takeWhile_imp member, fun c isHead => ?_⟩
  have atStop := List.head?_dropWhile_not isOf text
  rw [isHead] at atStop
  simpa using atStop

theorem Longest.takeWhile_append {isOf : Char → Bool} {front back : Text}
    (longest : Longest isOf front back) : (front ++ back).takeWhile isOf = front := by
  rw [List.takeWhile_append_of_pos longest.all]
  cases back with
  | nil => simp
  | cons c rest => simp [longest.stop c rfl]

theorem Longest.dropWhile_append {isOf : Char → Bool} {front back : Text}
    (longest : Longest isOf front back) : (front ++ back).dropWhile isOf = back := by
  rw [List.dropWhile_append_of_pos longest.all]
  cases back with
  | nil => rfl
  | cons c rest => simp [longest.stop c rfl]

/-! ### What stands at the front of a text -/

/-- Behind a tag character, `letters` is the name of a tag and `rest` follows it. -/
structure Names (tags : Registry) (letters rest : Text) (definition : Definition) : Prop where
  nonempty : letters ≠ []
  longest : Longest Char.isAlpha letters rest
  registered : tags.tags.find? (Text.lower letters) = some definition

/-- What follows the name of a tag is its argument and `after`. -/
inductive Takes (definition : Definition) : Text → Argument → Text → Prop where
  /-- A parenthesis that is closed. -/
  | enclosed {inside after : Text} (balanced : Balanced inside) :
      Takes definition ('(' :: inside ++ ')' :: after) (.enclosed inside) after
  /-- A parenthesis that is not. -/
  | unclosed {rest : Text}
      (unmatched : ∀ inside after, Balanced inside → rest ≠ inside ++ ')' :: after) :
      Takes definition ('(' :: rest) (.unclosed rest) []
  /-- No parenthesis, but the tag requires a parameter. -/
  | line {line after : Text} (noParenthesis : (line ++ after).head? ≠ some '(')
      (required : definition.requiresParameter = true)
      (longest : Longest (fun c => !Text.isLineBreak c) line after) :
      Takes definition (line ++ after) (.line line) after
  /-- No parenthesis, and the tag requires none. -/
  | absent {after : Text} (noParenthesis : after.head? ≠ some '(')
      (notRequired : definition.requiresParameter = false) :
      Takes definition after .absent after

/-- A text begins with a piece, and `after` follows it. -/
inductive Begins (tags : Registry) : Text → Piece → Text → Prop where
  /-- The name of a tag and its argument. -/
  | tag {letters rest after : Text} {definition : Definition} {argument : Argument}
      (names : Names tags letters rest definition) (takes : Takes definition rest argument after) :
      Begins tags (tagChar :: letters ++ rest) (.tag definition letters argument) after
  /-- The tag character twice. -/
  | escape {after : Text} : Begins tags (tagChar :: tagChar :: after) .escape after
  /-- Neither of them: all up to the next tag character. -/
  | segment {c : Char} {others after : Text}
      (noTag : ∀ letters rest definition, c :: others ++ after = tagChar :: letters ++ rest →
        ¬ Names tags letters rest definition)
      (noEscape : ¬ [tagChar, tagChar] <+: c :: others ++ after)
      (longest : Longest (· != tagChar) others after) :
      Begins tags (c :: others ++ after) (.segment (c :: others)) after

/-! ### The reader finds it -/

theorem takes_readArgument (definition : Definition) (rest : Text) :
    Takes definition rest (readArgument definition rest).1 (readArgument definition rest).2 := by
  unfold readArgument
  split
  · rename_i after
    split
    · rename_i inside behind found
      rw [eq_of_splitClosing found]
      exact .enclosed (closing_of_splitClosing found)
    · rename_i missing
      exact .unclosed (splitClosing_eq_none_iff.mp missing)
  · rename_i noParenthesis
    have head : rest.head? ≠ some '(' := by
      intro isHead
      obtain ⟨after, same⟩ := List.head?_eq_some_iff.mp isHead
      exact noParenthesis after same
    split
    · rename_i required
      have longest := longest_takeWhile (fun c => !Text.isLineBreak c) rest
      have whole : rest.takeWhile (fun c => !Text.isLineBreak c) ++
          rest.dropWhile (fun c => !Text.isLineBreak c) = rest := List.takeWhile_append_dropWhile
      have takes : Takes definition (rest.takeWhile (fun c => !Text.isLineBreak c) ++
          rest.dropWhile fun c => !Text.isLineBreak c) _ _ :=
        .line (by rw [whole]; exact head) required longest
      rw [whole] at takes
      exact takes
    · rename_i notRequired
      exact .absent head (by simpa using notRequired)

theorem readArgument_of_takes {definition : Definition} {rest after : Text} {argument : Argument}
    (takes : Takes definition rest argument after) :
    readArgument definition rest = (argument, after) := by
  cases takes with
  | enclosed balanced =>
    rw [List.cons_append, readArgument, splitClosing_append balanced]
  | unclosed unmatched => rw [readArgument, splitClosing_eq_none_iff.mpr unmatched]
  | line noParenthesis required longest =>
    unfold readArgument
    split
    · rename_i same
      rw [same] at noParenthesis
      exact absurd rfl noParenthesis
    · rw [if_pos required, longest.takeWhile_append, longest.dropWhile_append]
  | absent noParenthesis notRequired =>
    unfold readArgument
    split
    · exact absurd rfl noParenthesis
    · rw [if_neg (by simp [notRequired])]

/-- A name is looked up exactly where one stands. -/
theorem namedTag?_eq_some_iff {tags : Registry} {rest : Text} {definition : Definition} :
    namedTag? tags rest = some definition ↔
      Names tags (rest.takeWhile Char.isAlpha) (rest.dropWhile Char.isAlpha) definition := by
  have longest := longest_takeWhile Char.isAlpha rest
  constructor
  · intro found
    simp only [Scan.namedTag?] at found
    split at found
    · cases found
    · rename_i nonempty
      exact ⟨by simpa using nonempty, longest, found⟩
  · rintro ⟨nonempty, -, registered⟩
    rw [namedTag?, if_neg (by simpa using nonempty)]
    exact registered

theorem Names.namedTag? {tags : Registry} {letters rest : Text} {definition : Definition}
    (names : Names tags letters rest definition) :
    Scan.namedTag? tags (letters ++ rest) = some definition := by
  rw [namedTag?_eq_some_iff, names.longest.takeWhile_append, names.longest.dropWhile_append]
  exact names

theorem begins_readSegment {tags : Registry} {c : Char} {rest : Text}
    (noTag : c = tagChar → Scan.namedTag? tags rest = none)
    (noEscape : c = tagChar → rest.head? ≠ some tagChar) :
    Begins tags (c :: rest) (readSegment c rest).1 (readSegment c rest).2 := by
  have whole : rest.takeWhile (· != tagChar) ++ rest.dropWhile (· != tagChar) = rest :=
    List.takeWhile_append_dropWhile
  have begins : Begins tags (c :: rest.takeWhile (· != tagChar) ++ rest.dropWhile (· != tagChar))
      (.segment (c :: rest.takeWhile (· != tagChar))) (rest.dropWhile (· != tagChar)) := by
    refine .segment ?_ ?_ (longest_takeWhile _ rest)
    · intro letters behind definition same names
      rw [List.cons_append, whole, List.cons_append] at same
      obtain ⟨isTag, same⟩ := List.cons.inj same
      have found := names.namedTag?
      rw [← same, noTag isTag] at found
      cases found
    · rw [List.cons_append, whole, List.cons_prefix_cons]
      rintro ⟨isTag, second⟩
      refine noEscape isTag.symm ?_
      obtain ⟨behind, same⟩ := second
      rw [← same]
      rfl
  rw [List.cons_append, whole] at begins
  exact begins

/-- What the reader finds at the front of a text is there. -/
theorem begins_readPiece (tags : Registry) (c : Char) (rest : Text) :
    Begins tags (c :: rest) (readPiece tags c rest).1 (readPiece tags c rest).2 := by
  unfold readPiece
  split
  · rename_i isTag
    subst isTag
    split
    · rename_i definition found
      have begins := Begins.tag (namedTag?_eq_some_iff.mp found)
        (takes_readArgument definition (rest.dropWhile Char.isAlpha))
      rw [List.cons_append, List.takeWhile_append_dropWhile] at begins
      exact begins
    · rename_i missing
      split
      · exact begins_readSegment (fun _ => missing) (by simp)
      · rename_i d after
        split
        · rename_i second
          subst second
          exact .escape
        · rename_i notSecond
          exact begins_readSegment (fun _ => missing) (by simpa using notSecond)
  · rename_i notTag
    exact begins_readSegment (absurd · notTag) (absurd · notTag)

/-- What stands at the front of a text is what the reader finds. -/
theorem readPiece_of_begins {tags : Registry} {c : Char} {rest after : Text} {piece : Piece}
    (begins : Begins tags (c :: rest) piece after) : readPiece tags c rest = (piece, after) := by
  generalize whole : c :: rest = text at begins
  cases begins with
  | tag names takes =>
    rw [List.cons_append] at whole
    obtain ⟨rfl, rfl⟩ := List.cons.inj whole
    unfold readPiece
    rw [if_pos rfl, names.namedTag?]
    simp only [names.longest.takeWhile_append, names.longest.dropWhile_append,
      readArgument_of_takes takes]
  | escape =>
    obtain ⟨rfl, rfl⟩ := List.cons.inj whole
    have noName : namedTag? tags (tagChar :: after) = none := by
      simp [Scan.namedTag?, tagChar]
    unfold readPiece
    rw [if_pos rfl, noName]
    exact if_pos rfl
  | @segment d others _ noTag noEscape longest =>
    rw [List.cons_append] at whole noEscape
    obtain ⟨rfl, rfl⟩ := List.cons.inj whole
    have read : readSegment c (others ++ after) = (.segment (c :: others), after) := by
      rw [readSegment, longest.takeWhile_append, longest.dropWhile_append]
    unfold readPiece
    split
    · rename_i isTag
      subst isTag
      split
      · rename_i definition found
        refine absurd (namedTag?_eq_some_iff.mp found) (noTag _ _ definition ?_)
        rw [List.cons_append, List.cons_append, List.takeWhile_append_dropWhile]
      · split
        · exact read
        · rename_i second behind isCons
          rw [if_neg]
          · exact read
          · rintro rfl
            refine noEscape ?_
            rw [isCons]
            exact ⟨behind, rfl⟩
    · exact read

theorem Begins.source_append {tags : Registry} {text after : Text} {piece : Piece}
    (begins : Begins tags text piece after) : piece.source ++ after = text := by
  cases text with
  | nil => generalize whole : ([] : Text) = text at begins; cases begins <;> cases whole
  | cons c rest =>
    have whole := source_readPiece tags c rest
    rw [readPiece_of_begins begins] at whole
    exact whole

theorem Begins.source_ne_nil {tags : Registry} {text after : Text} {piece : Piece}
    (begins : Begins tags text piece after) : piece.source ≠ [] := by
  cases begins <;> simp [Piece.source]

/-! ### Tiles -/

/-- A piece and where it stands in a text. -/
structure Tile where
  start : Nat
  stop : Nat
  piece : Piece

/-- From a position on, tiles cover a text: the first begins there, each other one where the one
before it ends, and the last ends with the text. Each is what stands in its place. -/
inductive Tiles (tags : Registry) (text : Text) : Nat → List Tile → Prop where
  | done : Tiles tags text text.length []
  | next {tile : Tile} {others : List Tile} (nonempty : tile.start < tile.stop)
      (inside : tile.stop ≤ text.length)
      (slice : tile.piece.source = text.extract tile.start tile.stop)
      (begins : Begins tags (text.drop tile.start) tile.piece (text.drop tile.stop))
      (rest : Tiles tags text tile.stop others) : Tiles tags text tile.start (tile :: others)

/-- Puts pieces in their places, from a position on. -/
def place (start : Nat) : List Piece → List Tile
  | [] => []
  | piece :: others =>
    ⟨start, start + piece.source.length, piece⟩ :: place (start + piece.source.length) others

/-- Pieces that are read from a position on cover the text from there. -/
theorem tiles_place (tags : Registry) {text : Text} {start : Nat} (inside : start ≤ text.length)
    {rest : Text} (isRest : text.drop start = rest) :
    Tiles tags text start (place start (pieces tags rest)) := by
  -- The induction follows the reader, which sees only what is left of the text.
  fun_induction pieces tags rest generalizing start with
  | case1 =>
    have atEnd : start = text.length :=
      Nat.le_antisymm inside (List.drop_eq_nil_iff.mp isRest)
    rw [atEnd]
    exact .done
  | case2 c rest inductionHypothesis =>
    have begins := begins_readPiece tags c rest
    generalize (readPiece tags c rest).1 = piece at begins inductionHypothesis ⊢
    generalize (readPiece tags c rest).2 = after at begins inductionHypothesis ⊢
    have whole : piece.source ++ after = text.drop start := by
      rw [begins.source_append, isRest]
    have positive := List.length_pos_iff.mpr begins.source_ne_nil
    have length := congrArg List.length whole
    rw [List.length_append, List.length_drop] at length
    have isAfter : text.drop (start + piece.source.length) = after := by
      rw [← List.drop_drop, ← whole, List.drop_left]
    have fits : start + piece.source.length ≤ text.length := by omega
    have slice : piece.source = text.extract start (start + piece.source.length) := by
      rw [List.extract_eq_take_drop, Nat.add_sub_cancel_left, ← whole, List.take_left]
    have here : Begins tags (text.drop start) piece (text.drop (start + piece.source.length)) := by
      rw [isAfter, isRest]
      exact begins
    exact @Tiles.next tags text ⟨start, start + piece.source.length, piece⟩ _
      (Nat.lt_add_of_pos_right positive) fits slice here (inductionHypothesis fits isAfter)

/-- A text is covered in one way only. -/
theorem place_of_tiles {tags : Registry} {text : Text} {start : Nat} {tiles : List Tile}
    (covered : Tiles tags text start tiles) :
    tiles = place start (pieces tags (text.drop start)) := by
  induction covered with
  | done => rw [List.drop_length, pieces, place]
  | @next tile others nonempty inside slice begins rest inductionHypothesis =>
    have whole := begins.source_append
    obtain ⟨c, behind, isCons⟩ := List.exists_cons_of_ne_nil
      (show text.drop tile.start ≠ [] by rw [← whole]; simp [begins.source_ne_nil])
    have stop : tile.start + tile.piece.source.length = tile.stop := by
      rw [slice, List.extract_eq_take_drop, List.length_take, List.length_drop]
      omega
    rw [isCons] at begins ⊢
    rw [pieces, readPiece_of_begins begins, place, stop, ← inductionHypothesis]

theorem flatMap_extract_of_tiles {tags : Registry} {text : Text} {start : Nat} {tiles : List Tile}
    (covered : Tiles tags text start tiles) :
    tiles.flatMap (fun tile => text.extract tile.start tile.stop) = text.drop start := by
  induction covered with
  | done => simp
  | next nonempty inside slice begins rest inductionHypothesis =>
    rw [List.flatMap_cons, inductionHypothesis, ← slice, begins.source_append]

/-- Every piece of a text stands somewhere in it. -/
theorem begins_of_mem_pieces {tags : Registry} {text : Text} {piece : Piece}
    (member : piece ∈ pieces tags text) :
    ∃ front rest after, text = front ++ rest ∧ Begins tags rest piece after := by
  fun_induction pieces tags text with
  | case1 => cases member
  | case2 c rest inductionHypothesis =>
    rcases List.mem_cons.mp member with rfl | later
    · exact ⟨[], c :: rest, _, rfl, begins_readPiece tags c rest⟩
    · obtain ⟨front, behind, after, split, begins⟩ := inductionHypothesis later
      refine ⟨(readPiece tags c rest).1.source ++ front, behind, after, ?_, begins⟩
      rw [List.append_assoc, ← split, source_readPiece]

theorem names_of_mem_pieces {tags : Registry} {text letters : Text} {definition : Definition}
    {argument : Argument} (member : .tag definition letters argument ∈ pieces tags text) :
    ∃ rest, Names tags letters rest definition := by
  obtain ⟨front, rest, after, -, begins⟩ := begins_of_mem_pieces member
  cases begins with
  | tag names takes => exact ⟨_, names⟩

theorem mem_of_mem_place {start : Nat} {pieces : List Piece} {tile : Tile}
    (member : tile ∈ place start pieces) : tile.piece ∈ pieces := by
  induction pieces generalizing start with
  | nil => cases member
  | cons piece others inductionHypothesis =>
    rcases List.mem_cons.mp member with rfl | later
    · exact List.mem_cons_self
    · exact List.mem_cons_of_mem _ (inductionHypothesis later)

end TagExpansion.Scan

namespace TagExpansion.Engine

open Scan (Piece Tile Tiles)

/-! ### What tiles become -/

/-- What a tile of a text becomes when the text is expanded at `depth`: a tag its replacement, an
escape a tag character, a segment its converted text with paragraphs. What is wrong with the tile
has been reported before. -/
def Becomes (engine : Engine) (depth : Nat) (text : Text) (tile : Tile) (part : Text) : Prop :=
  match tile.piece with
  | .tag definition letters argument =>
    (engine.reportArgument letters argument).outcome = .ok () ∧
      (engine.expandTag (engine.expandAt (depth + 1)) (depth + 1) definition
        argument.parameter).outcome = .ok part
  | .escape => part = [Scan.tagChar]
  | .segment _ =>
    (engine.reportSegment (text.extract tile.start tile.stop)).outcome = .ok () ∧
      ∃ converted, engine.convert (text.extract tile.start tile.stop) = .ok converted ∧
        engine.setParagraphs converted = .ok part

theorem outcome_convertSegment_eq_ok_iff {engine : Engine} {segment part : Text} :
    (engine.convertSegment segment).outcome = .ok part ↔
      ∃ converted, engine.convert segment = .ok converted ∧
        engine.setParagraphs converted = .ok part :=
  Journal.outcome_andThen_eq_ok_iff

/-- A piece gives a part exactly where its tile becomes that part. -/
theorem outcome_expandPiece_eq_ok_iff {engine : Engine} {depth : Nat} {text part : Text}
    {tile : Tile} (slice : tile.piece.source = text.extract tile.start tile.stop) :
    (engine.expandPiece (engine.expandAt (depth + 1)) (depth + 1) tile.start tile.piece).outcome =
        .ok part ↔ engine.Becomes depth text tile part := by
  obtain ⟨start, stop, piece⟩ := tile
  cases piece with
  | tag definition letters argument =>
    simp only [expandPiece, Becomes, Journal.bind_eq_andThen, Journal.outcome_andThen_eq_ok_iff]
    constructor
    · rintro ⟨_, reported, _, _, replaced⟩
      exact ⟨reported, replaced⟩
    · rintro ⟨reported, replaced⟩
      exact ⟨(), reported, (), rfl, replaced⟩
  | escape =>
    simp only [expandPiece, Becomes, Journal.done, Except.ok.injEq]
    exact eq_comm
  | segment segment =>
    have isSlice : segment = text.extract start stop := slice
    simp only [expandPiece, Becomes, Journal.bind_eq_andThen, Journal.outcome_andThen_eq_ok_iff,
      ← isSlice]
    constructor
    · rintro ⟨_, reported, converted⟩
      exact ⟨reported, outcome_convertSegment_eq_ok_iff.mp converted⟩
    · rintro ⟨reported, converted⟩
      exact ⟨(), reported, outcome_convertSegment_eq_ok_iff.mpr converted⟩

/-- Pieces give the parts that their tiles become, one after the other. -/
theorem outcome_expandPieces_eq_ok_iff {engine : Engine} {depth start : Nat} {text result : Text}
    {tiles : List Tile} (covered : Tiles engine.tags text start tiles) :
    (engine.expandPieces (engine.expandAt (depth + 1)) (depth + 1) start
        (tiles.map Tile.piece)).outcome = .ok result ↔
      ∃ parts, List.Forall₂ (engine.Becomes depth text) tiles parts ∧ result = parts.flatten := by
  induction covered generalizing result with
  | done =>
    simp only [List.map_nil, expandPieces, Journal.done, List.forall₂_nil_left_iff,
      exists_eq_left, List.flatten_nil, Except.ok.injEq]
    exact eq_comm
  | @next tile others nonempty inside slice begins rest inductionHypothesis =>
    have stop : tile.start + tile.piece.source.length = tile.stop := by
      rw [slice, List.extract_eq_take_drop, List.length_take, List.length_drop]
      omega
    rw [List.map_cons, expandPieces, Journal.outcome_andThen_eq_ok_iff, stop]
    constructor
    · rintro ⟨part, first, last⟩
      rw [Journal.map_eq_andThen, Journal.outcome_andThen_eq_ok_iff] at last
      obtain ⟨written, later, same⟩ := last
      obtain ⟨parts, become, rfl⟩ := inductionHypothesis.mp later
      cases same
      exact ⟨part :: parts, .cons ((outcome_expandPiece_eq_ok_iff slice).mp first) become,
        List.flatten_cons.symm⟩
    · rintro ⟨parts, become, rfl⟩
      cases become with
      | @cons _ part _ parts first later =>
        refine ⟨part, (outcome_expandPiece_eq_ok_iff slice).mpr first, ?_⟩
        rw [Journal.map_eq_andThen, Journal.outcome_andThen_eq_ok_iff]
        exact ⟨parts.flatten, inductionHypothesis.mpr ⟨parts, later, rfl⟩, rfl⟩

theorem map_piece_place (start : Nat) (pieces : List Piece) :
    (Scan.place start pieces).map Tile.piece = pieces := by
  induction pieces generalizing start with
  | nil => rfl
  | cons piece others inductionHypothesis =>
    rw [Scan.place, List.map_cons, inductionHypothesis]

/-- A text is covered by tiles in exactly one way, from its front to its end, and its expansion is
what the tiles become, one after the other. A tag that is found bears the name in the text, in
lowercase. -/
theorem exists_tiles_of_expandAt (engine : Engine) (built : engine.tags.Built) {depth : Nat}
    (below : depth < engine.maxDepth) (text : Text) :
    ∃ tiles, Tiles engine.tags text 0 tiles ∧
      (∀ others, Tiles engine.tags text 0 others → others = tiles) ∧
      tiles.flatMap (fun tile => text.extract tile.start tile.stop) = text ∧
      (∀ tile ∈ tiles, ∀ definition letters argument,
        tile.piece = .tag definition letters argument → definition.name = Text.lower letters) ∧
      ∀ result, (engine.expandAt depth text).outcome = .ok result ↔
        ∃ parts, List.Forall₂ (engine.Becomes depth text) tiles parts ∧ result = parts.flatten := by
  have covered : Tiles engine.tags text 0 (Scan.place 0 (Scan.pieces engine.tags text)) :=
    Scan.tiles_place engine.tags (Nat.zero_le _) List.drop_zero
  refine ⟨_, covered, fun others cover => ?_, ?_, ?_, fun result => ?_⟩
  · rw [Scan.place_of_tiles cover, List.drop_zero]
  · rw [Scan.flatMap_extract_of_tiles covered, List.drop_zero]
  · intro tile member definition letters argument isTag
    have isPiece := Scan.mem_of_mem_place member
    rw [isTag] at isPiece
    obtain ⟨rest, names⟩ := Scan.names_of_mem_pieces isPiece
    exact built.named _ _ names.registered
  · rw [expandAt_of_lt engine below, Journal.outcome_enclose,
      ← outcome_expandPieces_eq_ok_iff covered, map_piece_place]

/-- Three tiles: a segment, an escape and a tag. -/
theorem exists_tiles_of_escaped_bold :
    let engine : Engine := { tags := .builtin .plain }
    let text := "a@@@bold(b)".toList
    engine.tags.Built ∧ 0 < engine.maxDepth ∧
      ∃ tiles parts, Tiles engine.tags text 0 tiles ∧
        List.Forall₂ (engine.Becomes 0 text) tiles parts ∧ "a@*b*".toList = parts.flatten := by
  intro engine text
  have built : engine.tags.Built := Tag.Registry.built_builtin .plain
  have below : 0 < engine.maxDepth := by decide
  have expanded : (engine.expandAt 0 text).outcome = .ok "a@*b*".toList := by decide +kernel
  obtain ⟨tiles, covered, -, -, -, results⟩ := exists_tiles_of_expandAt engine built below text
  obtain ⟨parts, become, same⟩ := (results _).mp expanded
  exact ⟨built, below, tiles, parts, covered, become, same⟩

end TagExpansion.Engine
