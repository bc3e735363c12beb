import TagExpansion.Command.Toolkit

/-
This file has the help pages. A page begins with a line that shows how the command
is called; the same line stands above the complaint about a wrong call.
-/

namespace TagExpansion.Tools

open Command (Interface Subcommand)

/-- What follows the name of a command in a call. -/
def shape : Option Subcommand → Text
  | none => " [OPTIONS] [COMMAND] [ARGS]...".toList
  | some .expand => " [OPTIONS] [PATH]".toList
  | some .tags => " [OPTIONS]".toList
  | some .version => " [OPTIONS]".toList

/-- A help page below its first line. -/
def body : Option Subcommand → Text
  | none => "
  TagMark: expand @-tags in documentation text.

Options:
  -q, --quiet    Do not show diagnostics.
  -v, --verbose  Show more diagnostics. May be repeated.
  --no-color     Disable colored diagnostics.
  -h, --help     Show this message and exit.

Commands:
  expand   Expand the @-tags of a text file (or STDIN).
  tags     List the builtin tags.
  version  Show the current version of TagMark.
".toList
  | some .expand => "
  Expand the @-tags of a text file (or STDIN).

Options:
  -c, --config FILE          Config file(s) to merge, in order (default:
                             ./tagmark.toml).
  -a, --abbreviations FILE   Abbreviation file(s) with '[name] expansion' lines.
  --format OUTPUTFORMAT      Output format (plain, html).
  --max-depth INTEGER RANGE  Maximal nesting of recursively expanded tag
                             parameters.  [1<=x<=150]
  --strict                   Exit with status 2 if any diagnostic was reported.
  -o, --output TEXT          Write the result to this file instead of STDOUT.
  -h, --help                 Show this message and exit.

  Reads PATH (or STDIN when PATH is '-' or omitted), expands the builtin tags
  and writes the result to STDOUT or to the --output file. Use '@@' for a
  literal '@'.
".toList
  | some .tags => "
  List the builtin tags.

Options:
  --format OUTPUTFORMAT  Output format whose tag set is listed (plain, html).
  -h, --help             Show this message and exit.
".toList
  | some .version => "
  Show the current version of TagMark.

Options:
  -h, --help  Show this message and exit.
".toList

/-- The line that shows how a command is called. -/
def usage (interface : Interface) (path : Text) : Text :=
  "Usage: ".toList ++ path ++ shape interface.command ++ ['\n']

/-- A whole help page. -/
def help (interface : Interface) (path : Text) : Text :=
  usage interface path ++ body interface.command

/-- What stands above the complaint about a wrong call. -/
def reminder (interface : Interface) (path : Text) : Text :=
  usage interface path ++ "Try '".toList ++ path ++ " --help' for help.\n\n".toList

end TagExpansion.Tools
