import TagExpansion.Proofs.Seam

/-
This file compares the two ways in which a parameter is written.

A tag that requires a parameter takes it from a pair of parentheses, or else from the rest of the
line. The first is found by counting parentheses, the second by looking for a line break and taking
off blanks, so they are two searches with nothing in common. Where the parentheses of a parameter
are balanced and it fits on a line, with no blank at either end, both find all of it, and both go on
at the end of the line. What is done with a parameter once it is found does not depend on how it was
written, so the two runs look alike.
-/

namespace TagExpansion.Scan

open Tag (Definition Registry)

/-! ### Tags as they are written -/

/-- Letters that are the name of a tag in some letter case. -/
structure Spells (tags : Registry) (letters : Text) (definition : Definition) : Prop where
  isName : Tag.isName letters = true
  registered : tags.lookup letters = some definition

variable {tags : Registry} {letters : Text} {definition : Definition}

theorem Spells.isAlpha (spells : Spells tags letters definition) {c : Char} (member : c ∈ letters) :
    c.isAlpha = true :=
  List.all_eq_true.mp (Bool.and_eq_true_iff.mp spells.isName).2 c member

/-- A name ends where something follows that is no letter. -/
theorem Spells.names (spells : Spells tags letters definition) {c : Char} (noLetter : ¬c.isAlpha)
    (rest : Text) : Names tags letters (c :: rest) definition where
  nonempty := by
    rintro rfl
    exact Bool.false_ne_true spells.isName
  longest := by
    refine ⟨fun _ member => spells.isAlpha member, fun d isHead => ?_⟩
    cases isHead
    exact eq_false_of_ne_true noLetter
  registered := spells.registered

theorem pieces_of_begins {text after : Text} {piece : Piece}
    (begins : Begins tags text piece after) : pieces tags text = piece :: pieces tags after := by
  obtain ⟨c, rest, rfl⟩ := List.exists_cons_of_ne_nil (l := text) fun nothing => by
    have whole := begins.source_append
    rw [nothing, List.append_eq_nil_iff] at whole
    exact begins.source_ne_nil whole.1
  rw [pieces, readPiece_of_begins begins]

/-- A name with a balanced text in parentheses is a tag with that argument. -/
theorem pieces_enclosed (spells : Spells tags letters definition) {inside : Text}
    (balanced : Balanced inside) (rest : Text) :
    pieces tags (tagChar :: letters ++ ('(' :: inside ++ ')' :: rest)) =
      .tag definition letters (.enclosed inside) :: pieces tags rest :=
  pieces_of_begins (.tag (spells.names (by decide) _) (.enclosed balanced))

/-- A name with a blank behind it is a tag with the rest of the line, if it requires a parameter. -/
theorem pieces_line (spells : Spells tags letters definition)
    (required : definition.requiresParameter = true) {line rest : Text}
    (oneLine : ∀ c ∈ line, Text.isLineBreak c = false)
    (ends : ∀ c, rest.head? = some c → Text.isLineBreak c = true) :
    pieces tags (tagChar :: letters ++ (' ' :: line ++ rest)) =
      .tag definition letters (.line (' ' :: line)) :: pieces tags rest := by
  have longest : Longest (fun c => !Text.isLineBreak c) (' ' :: line) rest := by
    refine ⟨?_, fun c isHead => by rw [ends c isHead]; rfl⟩
    intro c member
    rcases List.mem_cons.mp member with rfl | inLine
    · rfl
    · rw [oneLine c inLine]
      rfl
  have noParenthesis : (' ' :: line ++ rest).head? ≠ some '(' := by
    rw [List.cons_append, List.head?_cons]
    decide
  exact pieces_of_begins
    (.tag (spells.names (by decide) _) (.line noParenthesis required longest))

/-- A blank in front of a text is taken off with the others. -/
theorem strip_cons_of_isBlank {c : Char} (blank : Text.isBlank c = true) (text : Text) :
    Text.strip (c :: text) = Text.strip text := by
  rw [Text.strip, Text.strip, Text.stripWith, Text.stripWith, Text.stripLeft, Text.stripLeft,
    List.dropWhile_cons_of_pos blank]

end TagExpansion.Scan

namespace TagExpansion.Engine

open Tag (Definition)
open Scan (Argument Piece tagChar)

variable {engine : Engine} {nested : Text → Run Text} {depth : Nat}

/-- An argument that was not cut off by the end of the text. -/
def Complete : Argument → Prop
  | .unclosed _ => False
  | _ => True

theorem reportArgument_of_complete (letters : Text) {argument : Argument}
    (complete : Complete argument) : engine.reportArgument letters argument = .done () := by
  cases argument with
  | unclosed rest => exact complete.elim
  | absent => rfl
  | enclosed inside => rfl
  | line rest => rfl

/-- A tag is expanded alike for every complete argument that gives the same parameter. -/
theorem alike_expandPiece_of_parameter (start other : Nat) (definition : Definition)
    (letters : Text) {argument argument' : Argument} (complete : Complete argument)
    (complete' : Complete argument') (same : argument.parameter = argument'.parameter) :
    Run.Alike (engine.expandPiece nested depth start (.tag definition letters argument))
      (engine.expandPiece nested depth other (.tag definition letters argument')) := by
  simp only [expandPiece, Journal.bind_eq_andThen, reportArgument_of_complete letters complete,
    reportArgument_of_complete letters complete', Journal.done_andThen, same]
  exact (Run.Alike.log _ _).andThen fun _ => .refl _

/-- Below the limit, texts whose first pieces are expanded alike, and that go on with the same
pieces, are expanded alike. -/
theorem alike_expandAt_cons (below : depth < engine.maxDepth) {text other : Text}
    {piece piece' : Piece} {others : List Piece}
    (split : Scan.pieces engine.tags text = piece :: others)
    (split' : Scan.pieces engine.tags other = piece' :: others)
    (alike : ∀ nested, Run.Alike (engine.expandPiece nested (depth + 1) 0 piece)
      (engine.expandPiece nested (depth + 1) 0 piece')) :
    Run.Alike (engine.expandAt depth text) (engine.expandAt depth other) := by
  rw [expandAt_of_lt engine below, expandAt_of_lt engine below, split, split']
  refine (Run.Alike.enclose _).trans (Run.Alike.trans ?_ (Run.Alike.enclose _).symm)
  exact (alike _).andThen fun first => (alike_expandPieces _ _ others).map _

theorem expandPieces_singleton (start : Nat) (piece : Piece) :
    engine.expandPieces nested depth start [piece] =
      engine.expandPiece nested depth start piece := by
  show (engine.expandPiece nested depth start piece).andThen (fun first => .done (first ++ [])) = _
  simp only [List.append_nil]
  exact Journal.andThen_done _

/-- Below the limit a text that is a tag with a parameter in parentheses is expanded like the
tag. -/
theorem alike_expandAt_enclosed (below : depth < engine.maxDepth) {letters parameter : Text}
    {definition : Definition} (spells : Scan.Spells engine.tags letters definition)
    (balanced : Scan.Balanced parameter) :
    Run.Alike (engine.expandAt depth (tagChar :: letters ++ ('(' :: parameter ++ [')'])))
      (engine.expandTag (engine.expandAt (depth + 1)) (depth + 1) definition parameter) := by
  have nothing : Scan.pieces engine.tags [] = [] := by rw [Scan.pieces]
  rw [expandAt_of_lt engine below, Scan.pieces_enclosed spells balanced, nothing,
    expandPieces_singleton]
  refine (Run.Alike.enclose _).trans ?_
  show Run.Alike ((Run.logAll [_]).andThen fun _ => engine.expandTag _ _ definition parameter) _
  exact Run.Alike.logAll_andThen _ _

/-- A parameter that fits on a line may be written in parentheses or behind a blank: the outcome,
the calls of handlers and the reports are the same. -/
theorem expand_enclosed_eq_expand_line (engine : Engine) {letters : Text} {definition : Definition}
    (spells : Scan.Spells engine.tags letters definition)
    (required : definition.requiresParameter = true) {parameter rest : Text}
    (stripped : Text.strip parameter = parameter)
    (oneLine : ∀ c ∈ parameter, Text.isLineBreak c = false)
    (balanced : Scan.Balanced parameter)
    (ends : ∀ c, rest.head? = some c → Text.isLineBreak c = true) :
    let enclosed := engine.expand (tagChar :: letters ++ ('(' :: parameter ++ ')' :: rest))
    let line := engine.expand (tagChar :: letters ++ (' ' :: parameter ++ rest))
    enclosed.outcome = line.outcome ∧ enclosed.calls = line.calls ∧
      enclosed.reports = line.reports ∧ enclosed.diagnostics = line.diagnostics := by
  intro enclosed line
  have same : (Argument.enclosed parameter).parameter =
      (Argument.line (' ' :: parameter)).parameter := by
    rw [Argument.parameter, Argument.parameter, Scan.strip_cons_of_isBlank (by decide), stripped]
  have alike : Run.Alike enclosed line :=
    alike_expandAt_cons engine.maxDepth_pos (Scan.pieces_enclosed spells balanced rest)
      (Scan.pieces_line spells required oneLine ends) fun nested =>
        alike_expandPiece_of_parameter 0 0 definition letters trivial trivial same
  exact ⟨alike.outcome, alike.calls, alike.reports, alike.diagnostics⟩

/-- A parameter with a tag in it and a pair of parentheses, before a line break. -/
theorem expand_enclosed_eq_expand_line_of_bold :
    let engine : Engine := { tags := .builtin .plain, sink := .collect }
    let parameter := "(a) @code(b)".toList
    (∃ definition, Scan.Spells engine.tags "Bold".toList definition ∧
      definition.requiresParameter = true) ∧
    Text.strip parameter = parameter ∧ (∀ c ∈ parameter, Text.isLineBreak c = false) ∧
    Scan.Balanced parameter ∧
    (engine.expand "@Bold((a) @code(b))\nc".toList).outcome =
      (engine.expand "@Bold (a) @code(b)\nc".toList).outcome ∧
    (engine.expand "@Bold((a) @code(b))\nc".toList).outcome = .ok "*(a) \x60b\x60*\nc".toList := by
  intro engine parameter
  have spells : Scan.Spells engine.tags "Bold".toList
      ⟨"bold".toList, true, true, some (Tag.enclosing (['*'], ['*']))⟩ := ⟨by decide, rfl⟩
  have stripped : Text.strip parameter = parameter := by decide
  have oneLine : ∀ c ∈ parameter, Text.isLineBreak c = false := by
    simp [parameter, Text.isLineBreak]
  have found : Scan.splitClosing 0 (parameter ++ [')']) = some (parameter, []) := by decide
  have balanced : Scan.Balanced parameter := Scan.closing_of_splitClosing found
  have ends : ∀ c, "\nc".toList.head? = some c → Text.isLineBreak c = true := by
    rintro c ⟨⟩
    rfl
  have same := expand_enclosed_eq_expand_line engine spells rfl stripped oneLine balanced ends
  exact ⟨⟨_, spells, rfl⟩, stripped, oneLine, balanced, same.1, by decide +kernel⟩

end TagExpansion.Engine
