import TagExpansion.Template

/-
This file fills templates that have one directive.

The text around a directive that shows an argument as it is stays what it is, and the argument
comes to stand in the place of the directive. Nothing in the argument is read as part of the
template, since the parts of a template are known before the first argument is looked at.
-/

namespace TagExpansion.Template

/-- Text without a percent sign is its own part, character by character. -/
theorem parts_append {front : Text} (literal : '%' ∉ front) (rest : Text) :
    parts (front ++ rest) = front.map .literal ++ parts rest := by
  induction front with
  | nil => rfl
  | cons c front inductionHypothesis =>
    rw [List.mem_cons, not_or] at literal
    have isLiteral : ¬(c == '%') = true := by
      rw [beq_iff_eq]
      exact fun same => literal.1 same.symm
    show partsFrom none (c :: (front ++ rest)) = _
    rw [partsFrom, if_neg isLiteral]
    exact congrArg _ (inductionHypothesis literal.2)

theorem parts_of_literal {text : Text} (literal : '%' ∉ text) :
    parts text = text.map .literal := by
  have whole := parts_append literal []
  rw [List.append_nil] at whole
  exact whole.trans (List.append_nil _)

theorem fillParts_literal (text : Text) (parts : List Part) (arguments : List Value) :
    fillParts (text.map .literal ++ parts) arguments = (text ++ ·) <$> fillParts parts arguments := by
  induction text with
  | nil => exact (id_map _).symm
  | cons c text inductionHypothesis =>
    show (c :: ·) <$> fillParts (text.map .literal ++ parts) arguments = _
    rw [inductionHypothesis, ← comp_map]
    rfl

section

variable {layout : Layout} {form : Char} {argument : Value}

theorem showArgument_of_decimal (isForm : form ∈ ['d', 'i', 'u']) :
    showArgument layout form argument = wholeNumber argument >>= showInteger layout form true := by
  simp only [List.mem_cons, List.not_mem_nil, or_false] at isForm
  rcases isForm with rfl | rfl | rfl <;> rfl

theorem showArgument_of_based (isForm : form ∈ ['o', 'x', 'X']) :
    showArgument layout form argument =
      exactInteger argument >>= showInteger layout form false := by
  simp only [List.mem_cons, List.not_mem_nil, or_false] at isForm
  rcases isForm with rfl | rfl | rfl <;> rfl

theorem showArgument_of_fraction (isForm : form ∈ ['e', 'E', 'f', 'F', 'g', 'G']) :
    showArgument layout form argument = layout.real form <$> realNumber argument := by
  simp only [List.mem_cons, List.not_mem_nil, or_false] at isForm
  rcases isForm with rfl | rfl | rfl | rfl | rfl | rfl <;> rfl

end

/-- A directive of nothing but a form shows the next argument in that form. -/
theorem fill_directive (form : Char) (argument : Value) (others : List Value) :
    Directive.fill { form := some form } (argument :: others) =
      (·, others) <$> showArgument ⟨{}, 0, none⟩ form argument := by
  show showArgument ⟨{}, 0, none⟩ form argument >>= _ = _
  cases showArgument ⟨{}, 0, none⟩ form argument with
  | ok text => rfl
  | error failure => rfl

/-- Filling a template that has one directive of nothing but a form. -/
theorem fill_of_directive {front back : Text} (before : '%' ∉ front) (behind : '%' ∉ back)
    {form : Char} {argument : Value} {shown : Text}
    (reads : ∀ rest, parts ('%' :: form :: rest) =
      .directive { form := some form } :: parts rest)
    (shows : showArgument ⟨{}, 0, none⟩ form argument = .ok shown) :
    fill (front ++ '%' :: form :: back) [argument] = .ok (front ++ shown ++ back) := by
  have rest : fillParts (parts back) [] = .ok back := by
    have filled := fillParts_literal back [] []
    rw [List.append_nil] at filled
    rw [parts_of_literal behind, filled]
    show Except.ok (back ++ []) = _
    rw [List.append_nil]
  rw [fill, parts_append before, fillParts_literal, reads, fillParts, fill_directive, shows]
  show (front ++ ·) <$> (fillParts (parts back) [] >>= fun filled => pure (shown ++ filled)) = _
  rw [rest, List.append_assoc]
  rfl

/-- A text is shown as it is. -/
theorem showArgument_text (text : Text) :
    showArgument ⟨{}, 0, none⟩ 's' (.text text) = .ok text := by
  show Except.ok (List.replicate (0 - text.length) ' ' ++ text) = _
  rw [Nat.zero_sub]
  rfl

theorem fill_text {front back : Text} (before : '%' ∉ front) (behind : '%' ∉ back)
    (text : Text) :
    fill (front ++ '%' :: 's' :: back) [.text text] = .ok (front ++ text ++ back) :=
  fill_of_directive before behind (fun _ => rfl) (showArgument_text text)

theorem fill_number {front back : Text} (before : '%' ∉ front) (behind : '%' ∉ back)
    {number : Int} (hasNumeral : Text.hasNumeral number = true) :
    fill (front ++ '%' :: 'd' :: back) [.number number] =
      .ok (front ++ Text.ofInt number ++ back) := by
  have unpadded (text : Text) : Text.padLeft ' ' 0 text = text := by
    rw [Text.padLeft, Nat.zero_sub]
    rfl
  have shows : showInteger ⟨{}, 0, none⟩ 'd' true number =
      .ok (Layout.integer ⟨{}, 0, none⟩ 'd' number) := by
    rw [showInteger, if_neg (by decide), if_neg (by simp [hasNumeral])]
  have isWhole : wholeNumber (.number number) = pure number := rfl
  refine fill_of_directive before behind (fun rest => rfl) ?_
  rw [showArgument_of_decimal (by decide), isWhole, pure_bind, shows]
  show Except.ok (Text.padLeft ' ' 0 _) = _
  rw [unpadded]
  cases number with
  | ofNat size => rfl
  | negSucc size =>
    rw [show decide (Int.negSucc size < 0) = true from decide_eq_true (Int.negSucc_lt_zero size)]
    rfl

end TagExpansion.Template
