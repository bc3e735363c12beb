import TagExpansion.Markup.Escape
import TagExpansion.Markup.Paragraph
import TagExpansion.Text.LetterCase

/-
This file has the output formats. A format says how a stretch of text is
converted, how paragraphs are set in a converted stretch, and how the expanded
text is finished. Conversion and paragraphs are kept apart because verbatim tags
need the one without the other.
-/

namespace TagExpansion

/-- An output format. -/
inductive Format where
  | plain
  | html
  deriving DecidableEq, Repr

namespace Format

/-- The name of a format. -/
def name : Format → Text
  | .plain => "plain".toList
  | .html => "html".toList

/-- All formats. -/
def all : List Format := [.plain, .html]

/-- The names of all formats, as messages list them. -/
def choices : Text := Text.join ", ".toList (all.map name)

/-- The format with a given name. -/
def ofName? (name : Text) : Option Format := all.find? fun format => format.name = name

/-- The format with a given name in any letter case. -/
def ofAnyCase? (name : Text) : Option Format := ofName? (Text.lower name)

/-- The answer to a name that is no format. -/
def rejection (name : Text) : Text :=
  "Invalid value '".toList ++ name ++ "'. Must be one of: ".toList ++ choices

/-- Converts a stretch of text. -/
def convert : Format → Text → Text
  | .plain => id
  | .html => Markup.escape

/-- Sets the paragraphs of a converted stretch of text. -/
def setParagraphs : Format → Text → Text
  | .plain => Markup.plainParagraphs
  | .html => Markup.htmlParagraphs

/-- Finishes an expanded text. In HTML the outermost paragraph is put around it; blocks close
and reopen the paragraph they stand in, and the empty paragraphs that this leaves behind go. -/
def finish : Format → Text → Text
  | .plain, text => text
  | .html, text => Markup.dropEmptyParagraphs ("<p>".toList ++ text ++ "</p>".toList)

end Format

end TagExpansion
