import TagExpansion.Markup.Format
import TagExpansion.Tag.Registry

/-
This file has the builtin tags.

Bold, italic and code enclose their expanded parameter in markup. Longcode sets its
verbatim parameter as a block, after taking off the delimiter that must stand at both
ends of it. Html passes its verbatim parameter through where the output is HTML and
drops it elsewhere. The remaining tags take no parameter and stand for fixed text. The
formats differ only in the markup.
-/

namespace TagExpansion.Tag

/-- The markup of the builtin tags in one format. -/
structure Markup where
  bold : Text × Text
  italic : Text × Text
  code : Text × Text
  longcode : Text × Text
  lineBreak : Text
  /-- Whether raw HTML is passed through. -/
  raw : Bool
  deriving DecidableEq, Repr

/-- The markup of a format. -/
def Markup.of : Format → Markup
  | .plain => {
      bold := (['*'], ['*'])
      italic := (['_'], ['_'])
      code := (['\x60'], ['\x60'])
      longcode := ("\n\x60\x60\x60\n".toList, "\n\x60\x60\x60\n".toList)
      lineBreak := ['\n']
      raw := false }
  | .html => {
      bold := ("<b>".toList, "</b>".toList)
      italic := ("<i>".toList, "</i>".toList)
      code := ("<code>".toList, "</code>".toList)
      longcode := ("</p>\n<pre class=\"longcode\">".toList, "</pre>\n<p>".toList)
      lineBreak := "<br>".toList
      raw := true }

/-- Puts a text between two marks. -/
def enclose (marks : Text × Text) (text : Text) : Text := marks.1 ++ text ++ marks.2

/-- Puts the parameter between two marks. -/
def enclosing (marks : Text × Text) : Handler := fun _ parameter _ =>
  .answer (enclose marks parameter)

/-- Stands for a fixed text. -/
def standingFor (text : Text) : Handler := fun _ _ _ => .answer text

/-- The text between a delimiter at the front of a parameter and the same delimiter at its
end, without the line breaks at its ends. -/
def delimited? (parameter : Text) : Option Text :=
  match parameter with
  | delimiter :: next :: others =>
    if (next :: others).getLast? = some delimiter then
      some (Text.stripWith Text.isLineBreak (next :: others).dropLast)
    else none
  | _ => none

/-- The report about a block without delimiters. -/
def missingDelimiter (name : Text) : Report :=
  ⟨1, .warning, "Tag \"%s\" expects its text enclosed in a repeated delimiter character".toList,
    [.text name]⟩

/-- Sets the parameter as a block between two marks. -/
def block (marks : Text × Text) : Handler := fun name parameter _ =>
  match delimited? parameter with
  | some body => .convert body (.orFail fun converted => .answer (enclose marks converted))
  | none => .report (missingDelimiter name) (.orFail fun _ => .decline)

/-- Passes the parameter through, or drops it. -/
def passing (enabled : Bool) : Handler := fun _ parameter _ =>
  .answer (if enabled then parameter else [])

/-- The builtin tags of a format, in the order in which they are registered. -/
def builtins (format : Format) : List Registration :=
  let markup := Markup.of format
  let literal (word : String) : Registration :=
    { name := word.toList, handler := some (standingFor (enclose markup.code word.toList)) }
  [ { name := "bold".toList, handler := some (enclosing markup.bold),
      requiresParameter := true, recursive := true },
    { name := "italic".toList, handler := some (enclosing markup.italic),
      requiresParameter := true, recursive := true },
    { name := "code".toList, handler := some (enclosing markup.code),
      requiresParameter := true, recursive := true },
    { name := "longcode".toList, handler := some (block markup.longcode),
      requiresParameter := true },
    { name := "html".toList, handler := some (passing markup.raw), requiresParameter := true },
    { name := "br".toList, handler := some (standingFor markup.lineBreak) },
    literal "nil", literal "true", literal "false" ]

/-- The registration of the builtin tags of a format. -/
def registerBuiltins (format : Format) : Journal Log.Entry Refusal Registry :=
  Registry.empty.registerAll (builtins format)

/-- The registry of the builtin tags of a format. -/
def Registry.builtin (format : Format) : Registry :=
  match (registerBuiltins format).outcome with
  | .ok registry => registry
  | .error _ => .empty

end TagExpansion.Tag
