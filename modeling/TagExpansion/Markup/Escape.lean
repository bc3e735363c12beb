import TagExpansion.Text.Basic

/-
This file escapes text for HTML. The four characters with a meaning in HTML are
written as entities, every other character stands for itself.
-/

namespace TagExpansion.Markup

/-- One character of an escaped text. -/
def escapeChar (c : Char) : Text :=
  match c with
  | '&' => "&amp;".toList
  | '<' => "&lt;".toList
  | '>' => "&gt;".toList
  | '"' => "&quot;".toList
  | c => [c]

/-- Escapes a text for HTML. -/
def escape (text : Text) : Text := text.flatMap escapeChar

@[simp] theorem escape_nil : escape [] = [] := rfl

@[simp] theorem escape_cons (c : Char) (text : Text) :
    escape (c :: text) = escapeChar c ++ escape text := rfl

@[simp] theorem escape_append (first second : Text) :
    escape (first ++ second) = escape first ++ escape second := by
  simp [escape]

end TagExpansion.Markup
