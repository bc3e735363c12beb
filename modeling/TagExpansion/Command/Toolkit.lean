import TagExpansion.Config.Source
import TagExpansion.Markup.Format

/-
This file has what the program is built on and does not settle itself: how arguments are
read, how a help page looks, what becomes of a text on its way to a terminal, how a color
is made, and how a document is read. All that is the business of a toolkit, and there may
be many.

What the program does settle is which options a command has, how they are spelled, and
which values they take. A toolkit reads arguments by such a declaration, and its answers
are values of the kind that was declared: where a number is to lie in a range, it does.
-/

namespace TagExpansion.Command

/-- The commands of the program. -/
inductive Subcommand where
  | expand
  | tags
  | version
  deriving DecidableEq, Repr

/-- The name of the program. -/
def programName : Text := "tagmark".toList

namespace Subcommand

/-- All commands. -/
def all : List Subcommand := [.expand, .tags, .version]

/-- The name of a command. -/
def name : Subcommand → Text
  | .expand => "expand".toList
  | .tags => "tags".toList
  | .version => "version".toList

/-- How a command is called: by its name, behind that of the program. -/
def path (command : Subcommand) : Text := programName ++ ' ' :: command.name

end Subcommand

/-! ### What a command declares -/

/-- Which values an option takes. -/
inductive Domain where
  /-- No value: the option is given or not. -/
  | flag
  /-- No value: the option is counted. -/
  | counter
  | text (default : Text)
  /-- Any number of files, which have to be there. -/
  | files
  | range (least greatest : Int)
  /-- A format, which has to be named; for a name of none there is a complaint. -/
  | format (convert : Text → Except Text Format)

namespace Domain

/-- What is known of an option once arguments are read. -/
def Value : Domain → Type
  | .flag => Bool
  | .counter => Nat
  | .text _ => Text
  | .files => List Path
  | .range least greatest => Option { number : Int // least ≤ number ∧ number ≤ greatest }
  | .format _ => Option Format

/-- What is known of an option that is not given. -/
def unset : (domain : Domain) → domain.Value
  | .flag => false
  | .counter => (0 : Nat)
  | .text default => default
  | .files => ([] : List Path)
  | .range _ _ => none
  | .format _ => none

end Domain

/-- An option, or an argument that stands for itself: that one has no spelling. -/
structure Parameter where
  spellings : List Text := []
  domain : Domain

/-- What the program or one of its commands can be given. -/
structure Interface where
  /-- The command, unless it is the program itself. -/
  command : Option Subcommand
  Key : Type
  keys : List Key
  parameter : Key → Parameter
  distinguish : DecidableEq Key
  /-- The spellings that ask for help. -/
  help : List Text := ["-h".toList, "--help".toList]

/-- A value for everything that can be given. -/
abbrev Interface.Answers (interface : Interface) : Type :=
  (key : interface.Key) → (interface.parameter key).domain.Value

/-! ### What a toolkit does -/

/-- What the reading of arguments comes to. -/
inductive Reading (α : Type) where
  | settled (value : α)
  /-- Help is asked for. -/
  | help
  /-- The arguments do not fit the declaration; the complaint is what is said about it. -/
  | misuse (complaint : Text)
  /-- The reading failed in another way. -/
  | broken (breakdown : Breakdown)

/-- What the program is built on. -/
structure Toolkit where
  /-- Reads a document. -/
  parse : Text → Except Config.DocumentError Config.Table
  /-- Reads the options of the program, and finds the command behind them, if there is one, with
  its arguments. -/
  readProgram : (interface : Interface) → List Subcommand → List Text →
    Reading (interface.Answers × Option (Subcommand × List Text))
  /-- Reads the arguments of a command that is called in the given way. -/
  readCommand : (interface : Interface) → (path : Text) → FileTree → List Text →
    Reading interface.Answers
  /-- The help page of the program, or of a command that is called in the given way. -/
  help : Interface → (path : Text) → Text
  /-- The status of a call whose arguments do not fit. -/
  misuseStatus : Nat
  /-- The line that tells an error. -/
  errorLine : Text → Text
  /-- What is shown of a text. Whether it may have codes for a terminal can be settled; where it is
  not, it depends on whether a terminal shows it. -/
  echo : Option Bool → (terminal : Bool) → Text → Text
  /-- The codes for a terminal. -/
  IsCode : Text → Prop
  paint : Paint

/-- What the program counts on. -/
structure Toolkit.Conforms (toolkit : Toolkit) : Prop where
  /-- A call whose arguments do not fit has the status that is the usual one for that. -/
  misuseStatus : toolkit.misuseStatus = 2
  /-- A terminal shows texts as they are, unless it is settled that they have no codes. -/
  echo_terminal : ∀ text, toolkit.echo none true text = text
  /-- Where codes are ruled out, a terminal is nothing special. -/
  echo_plain : ∀ terminal text,
    toolkit.echo (some false) terminal text = toolkit.echo none false text
  /-- What is not shown by a terminal is the text itself exactly if no part of it is a code. -/
  echo_eq_self_iff : ∀ text, toolkit.echo none false text = text ↔
    ∀ code, toolkit.IsCode code → ¬code <:+: text

end TagExpansion.Command
