import TagExpansion.Toml.Document
import TagExpansion.Tools.Reader
import TagExpansion.Tools.Terminal

/-
This file has the toolkit with which the program is run: TOML documents, arguments with
dashes, and terminals that take escape codes.
-/

namespace TagExpansion.Tools

open Command (Toolkit)

/-- What stands for the place and the cause of a mistake in a TOML document. -/
def malformedWords : Text := "<TOML>".toList

/-- The breakdown at things that cannot stand in one table. -/
def clashBreakdown : Toml.Clash → Breakdown
  | .repeated name =>
    ⟨"KeyAlreadyPresent".toList, "Key \"".toList ++ name ++ "\" already exists.".toList⟩
  | .redefined => ⟨"TOMLKitError".toList, "Redefinition of an existing table".toList⟩

/-- Reads a TOML document. -/
def parseDocument (text : Text) : Except Config.DocumentError Config.Table :=
  match Toml.parse text with
  | .ok table => .ok table
  | .error .malformed => .error (.malformed malformedWords)
  | .error (.clash clash) => .error (.broken (clashBreakdown clash))

/-- What is shown of a text: without its codes, unless they are wanted. -/
def echo (color : Option Bool) (terminal : Bool) (text : Text) : Text :=
  if color.getD terminal then text else Terminal.dropCodes text

/-- The toolkit with which the program is run. -/
def standard : Toolkit where
  parse := parseDocument
  readProgram interface := readProgram interface Command.programName
  readCommand := readCommand
  help := help
  misuseStatus := 2
  errorLine := errorLine
  echo := echo
  IsCode := Terminal.IsCode
  paint tint := Terminal.paint (Terminal.stylesOf tint)

end TagExpansion.Tools
