import TagExpansion.Toml.Joining
import TagExpansion.Toml.Key
import TagExpansion.Toml.Moment

/-
This file reads the values of a TOML document.

Arrays and tables in braces hold values again, up to a greatest depth. Inside of
either, line breaks and comments count as blanks, and a comma may stand behind the last
item. A table in braces is complete once it is closed: nothing can be added to it.
-/

namespace TagExpansion.Toml

/-- How deep arrays and tables in braces may lie in each other. -/
def maxDepth : Nat := 100

/-- A bound on the steps of a check of a document. Its tables lie in each other no deeper than
the names of a header and those of a key lead, and a check takes three steps on every level. -/
def levels : Nat := 6 * maxNames + 6

/-- A value that holds no other. -/
def scalar (text : Text) : Except Error (Value × Text) :=
  match text with
  | '"' :: rest => do
    let (content, rest) ← string '"' true rest
    return (.text content, rest)
  | '\'' :: rest => do
    let (content, rest) ← string '\'' true rest
    return (.text content, rest)
  | 't' :: 'r' :: 'u' :: 'e' :: rest => .ok (.flag true, rest)
  | 'f' :: 'a' :: 'l' :: 's' :: 'e' :: rest => .ok (.flag false, rest)
  | c :: _ =>
    if c.isDigit || c == '+' || c == '-' || c == 'i' || c == 'n' then token text
    else .error .malformed
  | [] => .error .malformed

/-- The items of an array up to its closing bracket, given how an item is read. -/
def arrayItems (item : Text → Except Error (Value × Text)) :
    Nat → Text → Except Error (List Value × Text)
  | 0, _ => .error .malformed
  | fuel + 1, text => do
    match ← skipBlanks (text.length + 1) text with
    | ']' :: rest => return ([], rest)
    | rest =>
      let (first, rest) ← item rest
      match ← skipBlanks (rest.length + 1) rest with
      | ']' :: rest => return ([first], rest)
      | ',' :: rest =>
        let (others, rest) ← arrayItems item fuel rest
        return (first :: others, rest)
      | _ => throw .malformed

/-- The entries of a table in braces up to its closing brace, given how a value is read; those
before it are given. -/
def inlineEntries (item : Text → Except Error (Value × Text)) :
    Nat → Entries → Text → Except Error (Entries × Text)
  | 0, _, _ => .error .malformed
  | fuel + 1, before, text => do
    match ← skipBlanks (text.length + 1) text with
    | '\x7d' :: rest => return (before, rest)
    | rest =>
      let (names, rest) ← entryKey rest
      let (content, rest) ← item rest
      let entries ← ((nest .dotted names (.value content)).foldlM (join levels .complete) before).mapError
        Error.clash
      match ← skipBlanks (rest.length + 1) rest with
      | '\x7d' :: rest => return (entries, rest)
      | ',' :: rest => inlineEntries item fuel entries rest
      | _ => throw .malformed

/-- A value in which others lie at most so deep. -/
def valueWithin : Nat → Text → Except Error (Value × Text)
  | depth, '[' :: rest =>
    match depth with
    | 0 => .error .malformed
    | depth + 1 => do
      let (items, rest) ← arrayItems (valueWithin depth) (rest.length + 1) rest
      return (.list items, rest)
  | depth, '\x7b' :: rest =>
    match depth with
    | 0 => .error .malformed
    | depth + 1 => do
      let (entries, rest) ← inlineEntries (valueWithin depth) (rest.length + 1) [] rest
      let table ← (Entries.values levels entries).mapError Error.clash
      return (.table table, rest)
  | _, text => scalar text

/-- A value. -/
def value (text : Text) : Except Error (Value × Text) := valueWithin maxDepth text

end TagExpansion.Toml
