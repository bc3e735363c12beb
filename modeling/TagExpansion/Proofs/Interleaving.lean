import TagExpansion.Proofs.Overflow

/-
This file says what a template shows that has nothing in it but literal pieces and places for texts.

Such a template is written with every percent sign of a piece doubled and a directive between each
piece and the next. It is taken apart again before the first argument is looked at, so the pieces
come out as they were and the arguments as they are, whatever percent signs are in them. There must
be as many arguments as places; with more or fewer of them the template does not fit. Without
arguments it is not looked at as a template at all.
-/

namespace TagExpansion

namespace Template

/-- A text as it is written in a template: every percent sign stands there twice. -/
def doubled (text : Text) : Text := text.flatMap fun c => if c = '%' then ['%', '%'] else [c]

/-- A place for a text, and a piece behind it. -/
def placed (piece : Text) : Text := '%' :: 's' :: doubled piece

/-- The template of literal pieces with a place for a text between each of them and the next. -/
def spell (first : Text) (others : List Text) : Text := doubled first ++ others.flatMap placed

theorem parts_doubled_append (text rest : Text) :
    parts (doubled text ++ rest) = text.map .literal ++ parts rest := by
  induction text with
  | nil => rfl
  | cons c text inductionHypothesis =>
    rw [doubled, List.flatMap_cons, ← doubled, List.append_assoc]
    by_cases isPercent : c = '%'
    · subst isPercent
      exact congrArg (Part.literal '%' :: ·) inductionHypothesis
    · rw [if_neg isPercent, parts_append (by simpa using Ne.symm isPercent), inductionHypothesis]
      rfl

theorem parts_placed_append (piece rest : Text) :
    parts (placed piece ++ rest) =
      .directive { form := some 's' } :: (piece.map .literal ++ parts rest) :=
  congrArg (Part.directive { form := some 's' } :: ·) (parts_doubled_append piece rest)

/-- A place for a text shows the next argument as it is. -/
theorem fillParts_place (text : Text) (parts : List Part) (arguments : List Value) :
    fillParts (.directive { form := some 's' } :: parts) (.text text :: arguments) =
      (text ++ ·) <$> fillParts parts arguments := by
  rw [fillParts, fill_directive, showArgument_text]
  show (fillParts parts arguments >>= fun filled => pure (text ++ filled)) = _
  cases fillParts parts arguments with
  | ok filled => rfl
  | error failure => rfl

/-- Places are filled one by one, and there must be neither too few arguments nor too many. -/
theorem fillParts_placed (others texts : List Text) :
    fillParts (parts (others.flatMap placed)) (texts.map .text) =
      if texts.length = others.length then .ok (List.zipWith (· ++ ·) texts others).flatten
      else .error .mismatch := by
  induction others generalizing texts with
  | nil =>
    cases texts with
    | nil => rfl
    | cons text texts => rfl
  | cons piece others inductionHypothesis =>
    rw [List.flatMap_cons, parts_placed_append]
    cases texts with
    | nil => rfl
    | cons text texts =>
      rw [List.map_cons, fillParts_place, fillParts_literal, inductionHypothesis]
      simp only [List.length_cons, Nat.add_right_cancel_iff]
      split
      · rw [List.zipWith_cons_cons, List.flatten_cons, List.append_assoc]
        rfl
      · rfl

theorem fill_spell (first : Text) (others texts : List Text) :
    fill (spell first others) (texts.map .text) =
      if texts.length = others.length then
        .ok (first ++ (List.zipWith (· ++ ·) texts others).flatten)
      else .error .mismatch := by
  rw [fill, spell, parts_doubled_append, fillParts_literal, fillParts_placed]
  split
  · rfl
  · rfl

end Template

/-- Texts can be written down. -/
theorem Value.areWritable_texts (texts : List Text) :
    Value.areWritable (texts.map .text) = true := by
  induction texts with
  | nil => rfl
  | cons text texts inductionHypothesis => exact inductionHypothesis

namespace Report

open Template (spell)

/-- A template of literal pieces and places for texts shows the pieces with the arguments between
them if there are as many arguments as places. With more or fewer arguments, but some, the template
is shown as it is written, and the arguments behind it. Without arguments a template, whatever it
is, is the text. -/
theorem fillTemplate_spell (first : Text) (others texts : List Text) :
    (fillTemplate (spell first others) (texts.map .text)).outcome = .ok (
      if texts = [] then spell first others
      else if texts.length = others.length then
        first ++ (List.zipWith (· ++ ·) texts others).flatten
      else spell first others ++ ' ' :: Value.writtenArguments (texts.map .text)) ∧
    ∀ template, fillTemplate template [] = .done template := by
  refine ⟨?_, fun template => rfl⟩
  by_cases given : texts = []
  · subst given
    rfl
  · have present : texts.map Value.text ≠ [] := by simpa using given
    rw [fillTemplate_of_ne_nil present, Template.fill_spell, if_neg given]
    by_cases fits : texts.length = others.length
    · rw [if_pos fits, if_pos fits]
    · rw [if_neg fits, if_neg fits]
      exact if_pos (Value.areWritable_texts texts)

/-- A percent sign in an argument is no part of the template. -/
example : fillTemplate "100%% of \"%s\"".toList [.text "%d%%".toList] =
    .done "100% of \"%d%%\"".toList := by cbv

end Report

end TagExpansion
